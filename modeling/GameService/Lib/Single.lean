import Mathlib.Data.Nat.Log
import Mathlib.Data.Rat.Defs
import Mathlib.Algebra.Order.Field.Rat
import Mathlib.Tactic.FieldSimp
import Mathlib.Tactic.Linarith
import Mathlib.Tactic.Ring

/-!
# Single-precision numbers

The interchange format of 32 bits: a sign, eight bits of exponent and 23 bits of
fraction.  A finite number is a multiple of `2⁻¹⁴⁹`, so its magnitude is a natural
number in these units; `units` and `magnitudeBits` are the conversions, and they
need no case for the numbers without a leading bit (`magnitudeBits_units`).

`value` takes the bits for the number they stand for, `bits` gives the bits of a
number that has some (`IsSingle`), and `value_bits` is the round trip.  Zero has
one sign here, and the patterns for what is no number (`255` in the exponent) are
left out.
-/

namespace GameService.Lib.Single

/-- The magnitude that the 31 low bits stand for, in units of `2⁻¹⁴⁹`. -/
def units (b : ℕ) : ℕ :=
  if b < 2 ^ 23 then b else (2 ^ 23 + b % 2 ^ 23) * 2 ^ (b / 2 ^ 23 - 1)

/-- The 31 low bits of a magnitude. -/
def magnitudeBits (n : ℕ) : ℕ := (n.log2 - 23) * 2 ^ 23 + n / 2 ^ (n.log2 - 23)

theorem log2_units {f k : ℕ} (hf : f < 2 ^ 23) : ((2 ^ 23 + f) * 2 ^ k).log2 = 23 + k := by
  rw [Nat.log2_eq_iff (by positivity)]
  constructor
  · rw [pow_add]
    exact Nat.mul_le_mul_right _ (by omega)
  · rw [show 23 + k + 1 = 24 + k by omega, pow_add]
    exact Nat.mul_lt_mul_of_pos_right (by omega) (by positivity)

theorem magnitudeBits_units (b : ℕ) : magnitudeBits (units b) = b := by
  rw [units]
  split
  · rename_i hb
    -- a small magnitude is its own bits
    have hlog : b.log2 - 23 = 0 := by
      rcases Nat.eq_zero_or_pos b with rfl | hpos
      · rfl
      · have : b.log2 < 23 := (Nat.log2_lt (by omega)).mpr hb
        omega
    rw [magnitudeBits, hlog]
    omega
  · rename_i hb
    have hlog := log2_units (k := b / 2 ^ 23 - 1) (Nat.mod_lt b (by decide : 0 < 2 ^ 23))
    rw [magnitudeBits, hlog, Nat.add_sub_cancel_left, Nat.mul_div_cancel _ (by positivity)]
    have hexp : 0 < b / 2 ^ 23 := Nat.div_pos (by omega) (by decide)
    omega

def value (b : ℕ) : ℚ :=
  if b < 2 ^ 31 then units b / 2 ^ 149 else -(units (b - 2 ^ 31) / 2 ^ 149)

def bits (q : ℚ) : ℕ :=
  if 0 ≤ q then magnitudeBits (q * 2 ^ 149).num.toNat
  else 2 ^ 31 + magnitudeBits (-q * 2 ^ 149).num.toNat

/-- A number that single precision can hold. -/
def IsSingle (q : ℚ) : Prop := ∃ b < 2 ^ 32, b % 2 ^ 31 < 255 * 2 ^ 23 ∧ value b = q

theorem num_units (n : ℕ) : ((n : ℚ) / 2 ^ 149 * 2 ^ 149).num.toNat = n := by
  rw [div_mul_cancel₀ _ (by positivity), Rat.num_natCast, Int.toNat_natCast]

theorem units_eq_zero {b : ℕ} : units b = 0 ↔ b = 0 := by
  constructor
  · intro h
    rw [← magnitudeBits_units b, h]
    rfl
  · rintro rfl
    rfl

theorem bits_value {b : ℕ} (h : b ≠ 2 ^ 31) : bits (value b) = b := by
  rw [value]
  split
  · rename_i hb
    have hnonneg : (0 : ℚ) ≤ (units b : ℚ) / 2 ^ 149 := div_nonneg (Nat.cast_nonneg _) (by norm_num)
    rw [bits, if_pos hnonneg, num_units, magnitudeBits_units]
  · rename_i hb
    have hpos : 0 < units (b - 2 ^ 31) := by
      have : units (b - 2 ^ 31) ≠ 0 := fun h0 => by
        have := units_eq_zero.mp h0
        omega
      omega
    have hneg : ¬ (0 : ℚ) ≤ -((units (b - 2 ^ 31) : ℚ) / 2 ^ 149) := by
      have : (0 : ℚ) < (units (b - 2 ^ 31) : ℚ) / 2 ^ 149 :=
        div_pos (Nat.cast_pos.mpr hpos) (by norm_num)
      linarith
    rw [bits, if_neg hneg, neg_neg, num_units, magnitudeBits_units]
    omega

/-- **The round trip.** -/
theorem value_bits {q : ℚ} (h : IsSingle q) : value (bits q) = q ∧ bits q < 2 ^ 32 := by
  obtain ⟨b, hlt, _, rfl⟩ := h
  by_cases hb : b = 2 ^ 31
  · -- the zero with the sign is the zero without
    subst hb
    have hzero : value (2 ^ 31) = 0 := by
      rw [value, if_neg (by decide), Nat.sub_self]
      simp [units]
    rw [hzero]
    constructor
    · have hbits : bits 0 = 0 := by
        rw [bits, if_pos le_rfl, zero_mul]
        rfl
      rw [hbits, value, if_pos (by decide)]
      simp [units]
    · rw [bits, if_pos le_rfl, zero_mul]
      decide
  · rw [bits_value hb]
    exact ⟨rfl, hlt⟩

example : bits 1 = 0x3f800000 := by decide +kernel

end GameService.Lib.Single
