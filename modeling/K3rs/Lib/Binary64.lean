import Mathlib.Tactic

/-!
# Non-negative binary64 numbers

The finite non-negative numbers of IEEE 754 binary64, as multiples of the smallest positive one,
`2 ^ -1074`.  An operation computes the exact result as a fraction and rounds it to the nearest
number with 53 significant bits, ties to even (`nearest`).  Results beyond the largest finite
number do not occur here, and are not made infinite.

Above the smallest numbers the error of a result is at most one part in `2 ^ 53`
(`nearest_mul_le`, `le_nearest_mul`).
-/

namespace Binary64

/-- The number `1.0`, in units of the smallest positive number. -/
@[irreducible] def one : ℕ := 2 ^ 1074

/-- The natural number nearest to `n / d`, ties to even. -/
def roundDiv (n d : ℕ) : ℕ :=
  if 2 * (n % d) < d then n / d
  else if d < 2 * (n % d) then n / d + 1
  else n / d + n / d % 2

/-- The distance between two neighbours of `n / d` units. -/
def step (n d : ℕ) : ℕ := 2 ^ (Nat.log2 (n / d) - 52)

/-- The binary64 number nearest to `n / d` units. -/
def nearest (n d : ℕ) : ℕ := roundDiv n (d * step n d) * step n d

/-- An integer of up to 53 bits, which is exact. -/
def ofNat (n : ℕ) : ℕ := n * one

/-- Multiplication. -/
def mul (a b : ℕ) : ℕ := nearest (a * b) one

/-- Division. -/
def div (a b : ℕ) : ℕ := nearest (a * one) b

/-- `f64::ceil`. -/
def ceil (a : ℕ) : ℕ := (a + (one - 1)) / one * one

/-- `as u32`, which saturates. -/
def toUInt32 (a : ℕ) : UInt32 := UInt32.ofNat (min (a / one) (2 ^ 32 - 1))

theorem units_pos : 0 < one := by
  unfold one
  positivity

/-! ## Errors -/

section Error

variable {n d : ℕ}

/-- The error is at most one half. -/
theorem roundDiv_bounds (hd : 0 < d) :
    2 * (roundDiv n d * d) ≤ 2 * n + d ∧ 2 * n ≤ 2 * (roundDiv n d * d) + d := by
  have hdiv := Nat.div_add_mod n d
  have hmod := Nat.mod_lt n hd
  have htwo := Nat.mod_lt (n / d) two_pos
  rw [mul_comm] at hdiv
  rw [roundDiv]
  split_ifs with hlow hhigh
  · omega
  · rw [Nat.add_mul, one_mul]
    omega
  · -- A tie, which goes to one of the two sides.
    rcases Nat.le_one_iff_eq_zero_or_eq_one.mp (Nat.le_of_lt_succ htwo) with heven | hodd
    · rw [heven, Nat.add_zero]
      omega
    · rw [hodd, Nat.add_mul, one_mul]
      omega

/-- Two neighbours are at most one part in `2 ^ 52` apart. -/
theorem step_mul_le (h : 2 ^ 52 * d ≤ n) (hd : 0 < d) : d * step n d * 2 ^ 52 ≤ n := by
  have hquotient : 2 ^ 52 ≤ n / d := (Nat.le_div_iff_mul_le hd).mpr h
  have hne : n / d ≠ 0 := (lt_of_lt_of_le (Nat.two_pow_pos 52) hquotient).ne'
  have hlog : 52 ≤ Nat.log2 (n / d) := (Nat.le_log2 hne).mpr hquotient
  have hstep : step n d * 2 ^ 52 ≤ n / d := by
    rw [step, ← pow_add, Nat.sub_add_cancel hlog]
    exact Nat.log2_self_le hne
  calc d * step n d * 2 ^ 52 = step n d * 2 ^ 52 * d := by ring
    _ ≤ n / d * d := Nat.mul_le_mul_right d hstep
    _ ≤ n := Nat.div_mul_le_self n d

/-- The error is at most half a step. -/
theorem nearest_bounds (n : ℕ) (hd : 0 < d) :
    2 * (nearest n d * d) ≤ 2 * n + d * step n d ∧ 2 * n ≤ 2 * (nearest n d * d) + d * step n d := by
  have hstep : 0 < step n d := Nat.two_pow_pos _
  have heq : nearest n d * d = roundDiv n (d * step n d) * (d * step n d) := by
    rw [nearest]
    ring
  rw [heq]
  exact roundDiv_bounds (Nat.mul_pos hd hstep)

theorem nearest_mul_le (h : 2 ^ 52 * d ≤ n) (hd : 0 < d) :
    nearest n d * d * 2 ^ 53 ≤ n * (2 ^ 53 + 1) := by
  have hstep := step_mul_le h hd
  have hround := (nearest_bounds n hd).1
  linarith

theorem le_nearest_mul (h : 2 ^ 52 * d ≤ n) (hd : 0 < d) :
    n * 2 ^ 53 ≤ nearest n d * d * 2 ^ 53 + n := by
  have hstep := step_mul_le h hd
  have hround := (nearest_bounds n hd).2
  linarith

theorem nearest_zero (d : ℕ) : nearest 0 d = 0 := by
  simp [nearest, roundDiv]

end Error

/-! ## Integers -/

/-- Rounding up does not go beyond an integer. -/
theorem ceil_le {a r : ℕ} (h : a ≤ r * one) : ceil a ≤ r * one := by
  have hone := units_pos
  refine Nat.mul_le_mul_right one (Nat.le_of_lt_succ ((Nat.div_lt_iff_lt_mul hone).mpr ?_))
  rw [Nat.succ_mul]
  omega

/-- A number between two integers is rounded up. -/
theorem ceil_eq {a r : ℕ} (hlow : (r - 1) * one < a) (hhigh : a ≤ r * one) : ceil a = r * one := by
  have hone := units_pos
  refine le_antisymm (ceil_le hhigh) (Nat.mul_le_mul_right one ((Nat.le_div_iff_mul_le hone).mpr ?_))
  cases r with
  | zero => omega
  | succ r =>
      rw [Nat.add_sub_cancel] at hlow
      rw [Nat.succ_mul]
      omega

end Binary64
