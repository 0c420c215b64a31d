/-
# Whole numbers as floats of 32 bits

A `float` has 24 bits of precision: a whole number is rounded to a multiple of its unit in the
last place, the nearest one, and to an even one of two that are as near. Up to `2 ^ 24` it is
exact, and it is off by one at most up to `2 ^ 25`.
-/
import Mathlib.Data.Nat.Log
import Mathlib.Tactic.NormNum

namespace DeepStream

/-- A float that is a whole number, and not negative. -/
structure Binary32 where
  val : ℕ
  deriving DecidableEq, Repr

namespace Binary32

/-- The unit in the last place. -/
def ulp (n : ℕ) : ℕ := 2 ^ (Nat.log2 n - 23)

def round (n : ℕ) : ℕ :=
  let q := n / ulp n
  let r := n % ulp n
  if 2 * r < ulp n ∨ 2 * r = ulp n ∧ q % 2 = 0 then q * ulp n else (q + 1) * ulp n

/-- The float that is nearest to a whole number. -/
def ofNat (n : ℕ) : Binary32 := ⟨round n⟩

instance : Add Binary32 := ⟨fun a b => ofNat (a.val + b.val)⟩

instance : Mul Binary32 := ⟨fun a b => ofNat (a.val * b.val)⟩

theorem add_eq (a b : Binary32) : a + b = ofNat (a.val + b.val) := rfl

theorem mul_eq (a b : Binary32) : a * b = ofNat (a.val * b.val) := rfl

theorem ulp_pos (n : ℕ) : 0 < ulp n := Nat.two_pow_pos _

theorem ulp_le {n k : ℕ} (h : n < 2 ^ (24 + k)) : ulp n ≤ 2 ^ k := by
  refine Nat.pow_le_pow_right (by norm_num) ?_
  rcases Nat.eq_zero_or_pos n with rfl | hpos
  · simp
  · have := (Nat.log2_lt (Nat.ne_of_gt hpos)).mpr h
    omega

theorem round_eq {n : ℕ} (h : n < 2 ^ 24) : round n = n := by
  have hulp : ulp n = 1 := Nat.le_antisymm (ulp_le (k := 0) h) (ulp_pos n)
  unfold round
  rw [hulp, Nat.mod_one, Nat.div_one, if_pos (.inl (by norm_num)), Nat.mul_one]

theorem round_lt (n : ℕ) : round n < n + ulp n ∧ n < round n + ulp n := by
  have hpos := ulp_pos n
  have hdiv := Nat.div_add_mod n (ulp n)
  have hmod := Nat.mod_lt n hpos
  have hcomm := Nat.mul_comm (ulp n) (n / ulp n)
  unfold round
  dsimp only
  split
  · omega
  · rename_i hne
    rw [Nat.add_mul, Nat.one_mul]
    omega

end Binary32
end DeepStream
