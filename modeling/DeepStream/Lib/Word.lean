/-
# Machine words as natural numbers

The `unsigned` counters are natural numbers below `2 ^ w`; the operations that
can leave that range wrap around. `toInt32` is the conversion of an `unsigned`
to an `int`; `gint` is the value of an `int` that may have left its range.
-/
import Mathlib.Data.Nat.Bitwise
import Mathlib.Tactic.NormNum

namespace DeepStream

/-- `a + b` on `w` bits. -/
def wrapAdd (w a b : ℕ) : ℕ := (a + b) % 2 ^ w

/-- `a - b` on `w` bits. -/
def wrapSub (w a b : ℕ) : ℕ := (2 ^ w - b % 2 ^ w + a) % 2 ^ w

/-- An `unsigned` read as an `int`. -/
def toInt32 (n : ℕ) : ℤ := if n % 2 ^ 32 < 2 ^ 31 then (n % 2 ^ 32 : ℕ) else (n % 2 ^ 32 : ℕ) - 2 ^ 32

/-- The value of a signed integer of 32 bits. -/
def gint (n : ℤ) : ℤ := n.bmod (2 ^ 32)

theorem wrapAdd_of_lt {w a b : ℕ} (h : a + b < 2 ^ w) : wrapAdd w a b = a + b :=
  Nat.mod_eq_of_lt h

theorem wrapSub_of_le {w a b : ℕ} (hab : b ≤ a) (ha : a < 2 ^ w) : wrapSub w a b = a - b := by
  unfold wrapSub
  rw [Nat.mod_eq_of_lt (show b < 2 ^ w by omega), show 2 ^ w - b + a = a - b + 2 ^ w by omega,
    Nat.add_mod_right, Nat.mod_eq_of_lt (by omega)]

theorem toInt32_of_lt {n : ℕ} (h : n < 2 ^ 31) : toInt32 n = n := by
  have h' : n < 2 ^ 32 := by omega
  rw [toInt32, Nat.mod_eq_of_lt h', if_pos h]

theorem toInt32_lt (n : ℕ) : toInt32 n < 2 ^ 31 := by
  unfold toInt32
  split <;> omega

/-- The mask of the upper half of 64 bits. -/
theorem and_high32 {a : ℕ} (h : a < 2 ^ 64) : a &&& 0xffffffff00000000 = a / 2 ^ 32 * 2 ^ 32 := by
  rw [show (0xffffffff00000000 : ℕ) = (2 ^ 32 - 1) <<< 32 by decide, ← Nat.shiftRight_eq_div_pow,
    ← Nat.shiftLeft_eq]
  refine Nat.eq_of_testBit_eq fun i => ?_
  rw [Nat.testBit_and, Nat.testBit_shiftLeft, Nat.testBit_two_pow_sub_one, Nat.testBit_shiftLeft,
    Nat.testBit_shiftRight]
  by_cases hlo : 32 ≤ i
  · rw [decide_eq_true hlo, Bool.true_and, Bool.true_and, Nat.add_sub_cancel' hlo]
    by_cases hhi : i < 64
    · rw [decide_eq_true (show i - 32 < 32 by omega), Bool.and_true]
    · rw [Nat.testBit_lt_two_pow (h.trans_le (Nat.pow_le_pow_right (by decide) (Nat.le_of_not_lt hhi))),
        Bool.false_and]
  · rw [decide_eq_false hlo, Bool.false_and, Bool.false_and, Bool.and_false]

theorem gint_of_mem {n : ℤ} (hlo : -2 ^ 31 ≤ n) (hhi : n < 2 ^ 31) : gint n = n :=
  Int.bmod_eq_of_le (by norm_num; omega) (by norm_num; omega)

end DeepStream
