/-
# A sliding window in a ring of slots

A ring of `n` slots is written at one position after the other, so that from a
start position on it holds the last values that were written. What it means that
a slot holds a value is left open: `P k x` says so of the slot `k`, and a write
is known from the slots that it leaves alone.
-/
import Mathlib.Data.List.Basic

namespace DeepStream

variable {α : Type*} {n start : ℕ} {P Q : ℕ → α → Prop} {xs : List α} {x : α}

/-- From `start` on the slots hold the values, in order. -/
def Window (n : ℕ) (P : ℕ → α → Prop) (start : ℕ) (xs : List α) : Prop :=
  ∀ i (h : i < xs.length), P ((start + i) % n) xs[i]

/-- The slot `k` is written, and no other. -/
def Writes (n : ℕ) (P Q : ℕ → α → Prop) (k : ℕ) (x : α) : Prop :=
  Q k x ∧ ∀ j < n, j ≠ k → ∀ y, P j y → Q j y

theorem add_mod_ne {i j : ℕ} (hij : i < j) (hj : j < i + n) : (start + i) % n ≠ (start + j) % n := by
  intro h
  have hmod : (start + j - (start + i)) % n = 0 := Nat.sub_mod_eq_zero_of_mod_eq h.symm
  rw [show start + j - (start + i) = j - i by omega, Nat.mod_eq_of_lt (by omega)] at hmod
  omega

namespace Window

theorem nil : Window n P start [] := fun i h => absurd h (Nat.not_lt_zero i)

theorem mono (h : Window n P start xs) (hn : 0 < n) (hP : ∀ k < n, ∀ y, P k y → Q k y) : Window n Q start xs :=
  fun i hi => hP _ (Nat.mod_lt _ hn) _ (h i hi)

/-- A value is written after the last one. -/
theorem push (h : Window n P start xs) (hlen : xs.length < n) (hw : Writes n P Q ((start + xs.length) % n) x) :
    Window n Q start (xs ++ [x]) := by
  intro i hi
  rw [List.length_append, List.length_singleton] at hi
  by_cases hlast : i = xs.length
  · subst hlast
    rw [List.getElem_append_right (Nat.le_refl _)]
    simpa using hw.1
  · have hlt : i < xs.length := by omega
    rw [List.getElem_append_left hlt]
    exact hw.2 _ (Nat.mod_lt _ (by omega)) (add_mod_ne hlt (by omega)) _ (h i hlt)

/-- The first `m` values are given up. -/
theorem advance (h : Window n P start xs) (m : ℕ) : Window n P ((start + m) % n) (xs.drop m) := by
  intro i hi
  rw [List.length_drop] at hi
  have hslot : ((start + m) % n + i) % n = (start + (m + i)) % n := by
    rw [Nat.mod_add_mod, Nat.add_assoc]
  rw [hslot, List.getElem_drop]
  exact h (m + i) (by omega)

/-- A value is written over the first one of a full ring. -/
theorem push_full (h : Window n P start xs) (hlen : xs.length = n) (hn : 0 < n)
    (hw : Writes n P Q ((start + n) % n) x) : Window n Q ((start + 1) % n) (xs.drop 1 ++ [x]) := by
  have hdrop : (xs.drop 1).length = n - 1 := by rw [List.length_drop, hlen]
  refine (h.advance 1).push (by omega) ?_
  rw [hdrop, Nat.mod_add_mod, show start + 1 + (n - 1) = start + n by omega]
  exact hw

end Window
end DeepStream
