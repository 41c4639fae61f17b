import Mathlib.Data.Int.Init
import Mathlib.Data.Rat.Floor
import Mathlib.Tactic.Linarith

/-!
# Fixed-width integers

Machine integers are integers here, with the width made explicit where it
matters.  `InInt32` and `InInt64` are the ranges, `wrap32` the conversion that
keeps the low bits, and `wrapU32` the same for an unsigned result.  `checked32`
and `checked64` are for arithmetic whose overflow C++ leaves undefined: they have a
value only inside the range.  `toInt32` is the conversion of a real number to a
32-bit integer, which truncates towards zero and is undefined outside the range.
-/

namespace GameService.Lib

def InInt32 (n : ℤ) : Prop := -2 ^ 31 ≤ n ∧ n < 2 ^ 31

def InInt64 (n : ℤ) : Prop := -2 ^ 63 ≤ n ∧ n < 2 ^ 63

instance (n : ℤ) : Decidable (InInt32 n) := inferInstanceAs (Decidable (_ ∧ _))

instance (n : ℤ) : Decidable (InInt64 n) := inferInstanceAs (Decidable (_ ∧ _))

def wrap32 (n : ℤ) : ℤ := Int.bmod n (2 ^ 32)

theorem wrap32_eq {n : ℤ} (h : InInt32 n) : wrap32 n = n := by
  obtain ⟨h1, h2⟩ := h
  exact Int.bmod_eq_of_le (by omega) (by omega)

theorem wrap32_range (n : ℤ) : InInt32 (wrap32 n) := by
  rw [wrap32, Int.bmod]
  split
  · constructor <;> omega
  · constructor <;> omega

/-- A size survives the conversion exactly when it is below `2 ^ 31`. -/
theorem wrap32_natCast (n : ℕ) : wrap32 n = n ↔ n < 2 ^ 31 := by
  constructor
  · intro h
    have := (wrap32_range n).2
    omega
  · intro h
    exact wrap32_eq ⟨by omega, by omega⟩

theorem wrap32_congr {n m : ℤ} (h : n % 2 ^ 32 = m % 2 ^ 32) : wrap32 n = wrap32 m := by
  rw [wrap32, wrap32, Int.bmod, Int.bmod]
  simp only [Nat.cast_pow, Nat.cast_ofNat, h]

/-- Two numbers less than half the range apart keep their distance, unless the
range ends between them. -/
theorem wrap32_sub {n m : ℤ} (h : n ≤ m) (hlt : m - n < 2 ^ 31) :
    wrap32 m - wrap32 n = if wrap32 n ≤ wrap32 m then m - n else m - n - 2 ^ 32 := by
  rw [wrap32, wrap32, Int.bmod, Int.bmod]
  split <;> split <;> split <;> omega

def wrap64 (n : ℤ) : ℤ := Int.bmod n (2 ^ 64)

/-- Conversion to an unsigned integer of 32 bits. -/
def wrapU32 (n : ℤ) : ℤ := n % 2 ^ 32

/-- The result of 32-bit arithmetic, undefined on overflow. -/
def checked32 (n : ℤ) : Option ℤ := if InInt32 n then some n else none

theorem checked32_eq_some {n m : ℤ} : checked32 n = some m ↔ InInt32 n ∧ n = m := by
  rw [checked32]
  split <;> simp_all

def checked64 (n : ℤ) : Option ℤ := if InInt64 n then some n else none

theorem checked64_eq_some {n m : ℤ} : checked64 n = some m ↔ InInt64 n ∧ n = m := by
  rw [checked64]
  split <;> simp_all

def trunc (q : ℚ) : ℤ := if 0 ≤ q then ⌊q⌋ else ⌈q⌉

/-- Conversion of a real number to 32 bits, undefined outside the range. -/
def toInt32 (q : ℚ) : Option ℤ := checked32 (trunc q)

theorem toInt32_eq_some {q : ℚ} {n : ℤ} : toInt32 q = some n ↔ InInt32 n ∧ trunc q = n := by
  rw [toInt32, checked32_eq_some]
  exact ⟨fun h => ⟨h.2 ▸ h.1, h.2⟩, fun h => ⟨h.2 ▸ h.1, h.2⟩⟩

/-! ### Truncation

The integers above `0` are reached from above and those below it from below, so the
bounds come in two kinds, and `0` is the truncation of an interval twice as wide as
the others. -/

section Truncation

variable {a b q : ℚ} {n : ℤ}

theorem trunc_of_nonneg (h : 0 ≤ q) : trunc q = ⌊q⌋ := if_pos h

theorem trunc_of_neg (h : q < 0) : trunc q = ⌈q⌉ := if_neg (not_le.mpr h)

theorem trunc_nonneg (h : 0 ≤ q) : 0 ≤ trunc q := by
  rw [trunc_of_nonneg h]
  exact Int.floor_nonneg.mpr h

theorem trunc_nonpos (h : q < 0) : trunc q ≤ 0 := by
  rw [trunc_of_neg h]
  exact Int.ceil_le.mpr (by exact_mod_cast h.le)

theorem lt_trunc_add_one (q : ℚ) : q < trunc q + 1 := by
  rcases le_or_gt 0 q with h | h
  · rw [trunc_of_nonneg h]
    exact Int.lt_floor_add_one q
  · rw [trunc_of_neg h]
    have := Int.le_ceil q
    linarith

theorem trunc_le_iff (hn : 0 ≤ n) : trunc q ≤ n ↔ q < n + 1 := by
  rcases le_or_gt 0 q with h | h
  · rw [trunc_of_nonneg h, ← Int.lt_add_one_iff, Int.floor_lt]
    push_cast
    rfl
  · have hn' : (0 : ℚ) ≤ n := by exact_mod_cast hn
    exact iff_of_true ((trunc_nonpos h).trans hn) (by linarith)

theorem le_trunc_iff (hn : n ≤ 0) : n ≤ trunc q ↔ (n : ℚ) - 1 < q := by
  rcases le_or_gt 0 q with h | h
  · have hn' : (n : ℚ) ≤ 0 := by exact_mod_cast hn
    exact iff_of_true (hn.trans (trunc_nonneg h)) (by linarith)
  · rw [trunc_of_neg h, ← Int.sub_one_lt_iff, Int.lt_ceil]
    push_cast
    rfl

/-- Truncation takes numbers apart no further than to the next integer. -/
theorem trunc_sub_le (hn : 0 ≤ n) (h : a - b ≤ n) : trunc a - trunc b ≤ n := by
  suffices hle : trunc a ≤ trunc b + n by omega
  rcases le_or_gt 0 (trunc b + n) with hpos | hneg
  · rw [trunc_le_iff hpos]
    have := lt_trunc_add_one b
    push_cast
    linarith
  · -- both numbers are below `0`
    have hb : b < 0 := by
      by_contra hge
      have := trunc_nonneg (not_lt.mp hge)
      omega
    have hceil : a ≤ ((⌈b⌉ + n : ℤ) : ℚ) := by
      have := Int.le_ceil b
      push_cast
      linarith
    rw [trunc_of_neg hb] at hneg ⊢
    have ha : a < 0 := hceil.trans_lt (by exact_mod_cast hneg)
    rw [trunc_of_neg ha]
    exact Int.ceil_le.mpr hceil

theorem abs_trunc_sub_le (hn : 0 ≤ n) (h : |a - b| ≤ n) : |trunc a - trunc b| ≤ n := by
  rw [abs_le] at h ⊢
  have hba : trunc b - trunc a ≤ n := trunc_sub_le hn (by linarith)
  exact ⟨by omega, trunc_sub_le hn h.2⟩

end Truncation

end GameService.Lib
