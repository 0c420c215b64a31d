/-
# Row-major positions

An array of arrays of `m` elements each has the element `b` of the array `a` at
the position `a * m + b`; an array of more dimensions is one of arrays. Two
elements have the same position only if they are the same.

Lists of `m` elements each, one after the other, are such an array.
-/
import Mathlib.Data.List.Forall2
import Mathlib.Tactic.Ring

namespace DeepStream
namespace RowMajor

variable {m n a a' b b' : ℕ}

theorem lt_mul (ha : a < n) (hb : b < m) : a * m + b < n * m :=
  calc a * m + b < a * m + m := Nat.add_lt_add_left hb _
    _ = (a + 1) * m := by ring
    _ ≤ n * m := Nat.mul_le_mul_right _ ha

theorem inj (hb : b < m) (hb' : b' < m) (h : a * m + b = a' * m + b') : a = a' ∧ b = b' := by
  have hdiv : ∀ {a b : ℕ}, b < m → (a * m + b) / m = a := by
    intro a b hb
    rw [Nat.mul_comm, Nat.mul_add_div (by omega), Nat.div_eq_of_lt hb, Nat.add_zero]
  have ha : a = a' := by rw [← hdiv (a := a) hb, h, hdiv hb']
  subst ha
  exact ⟨rfl, by omega⟩

/-- The position of an element of an array with these dimensions. -/
def index (dims idx : List ℕ) : ℕ := (dims.zip idx).foldl (fun acc p => acc * p.1 + p.2) 0

theorem foldl_inj : ∀ {dims idx idx' : List ℕ} {acc acc' : ℕ}, List.Forall₂ (· < ·) idx dims →
    List.Forall₂ (· < ·) idx' dims → (dims.zip idx).foldl (fun acc p => acc * p.1 + p.2) acc =
      (dims.zip idx').foldl (fun acc p => acc * p.1 + p.2) acc' → acc = acc' ∧ idx = idx'
  | [], _, _, _, _, .nil, .nil, h => ⟨h, rfl⟩
  | _ :: dims, _ :: _, _ :: _, _, _, .cons hi hidx, .cons hi' hidx', h => by
    obtain ⟨hacc, rfl⟩ := foldl_inj hidx hidx' h
    obtain ⟨rfl, rfl⟩ := inj hi hi' hacc
    exact ⟨rfl, rfl⟩

/-- No two elements have one position. -/
theorem index_inj {dims idx idx' : List ℕ} (h : List.Forall₂ (· < ·) idx dims) (h' : List.Forall₂ (· < ·) idx' dims)
    (heq : index dims idx = index dims idx') : idx = idx' := (foldl_inj h h' heq).2

/-! ### Blocks of one length -/

section Blocks

variable {α β : Type*} {f : α → List β}

theorem length_flatMap {l : List α} (h : ∀ x ∈ l, (f x).length = m) : (l.flatMap f).length = l.length * m := by
  induction l with
  | nil => rw [List.flatMap_nil, List.length_nil, List.length_nil, Nat.zero_mul]
  | cons x l ih =>
    rw [List.flatMap_cons, List.length_append, h x List.mem_cons_self, ih fun y hy => h y (List.mem_cons_of_mem x hy),
      List.length_cons, Nat.add_mul, Nat.one_mul, Nat.add_comm]

/-- What is behind the first `i` blocks. -/
theorem drop_flatMap : ∀ {l : List α} (i : ℕ), (∀ x ∈ l, (f x).length = m) →
    (l.flatMap f).drop (i * m) = (l.drop i).flatMap f
  | _, 0, _ => by rw [Nat.zero_mul, List.drop_zero, List.drop_zero]
  | [], i + 1, _ => by rw [List.drop_nil, List.flatMap_nil, List.drop_nil]
  | x :: l, i + 1, h => by
    have hsplit : (i + 1) * m = (f x).length + i * m := by
      rw [h x List.mem_cons_self]
      ring
    rw [List.flatMap_cons, hsplit, List.drop_append, List.drop_succ_cons]
    rw [List.drop_of_length_le (Nat.le_add_right _ _), List.nil_append, Nat.add_sub_cancel_left]
    exact drop_flatMap i fun y hy => h y (List.mem_cons_of_mem x hy)

/-- The block at a position. -/
theorem take_drop_flatMap {l : List α} {i : ℕ} {x : α} (h : ∀ x ∈ l, (f x).length = m) (hx : l[i]? = some x) :
    ((l.flatMap f).drop (i * m)).take m = f x := by
  obtain ⟨hlt, hat⟩ := List.getElem?_eq_some_iff.mp hx
  have hmem : x ∈ l := List.mem_of_getElem? hx
  rw [drop_flatMap i h, List.drop_eq_getElem_cons hlt, hat, List.flatMap_cons,
    List.take_append_of_le_length (h x hmem).ge, List.take_of_length_le (h x hmem).le]

end Blocks

end RowMajor
end DeepStream
