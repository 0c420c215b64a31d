/-
# Computations that give something

What is asked of the result of a computation in `Option`, and that there is one; and how the parts
of a computation are asked.
-/
import Mathlib.Data.Option.Basic

namespace DeepStream

universe u

variable {α β : Type*} {Q Q' : α → Prop} {x : Option α} {a : α} {R : β → Prop}

/-- There is a result, and it is such. -/
def Gives (x : Option α) (Q : α → Prop) : Prop := ∃ a, x = some a ∧ Q a

@[simp] theorem gives_some : Gives (some a) Q ↔ Q a := by
  constructor
  · rintro ⟨_, ⟨rfl⟩, h⟩
    exact h
  · exact fun h => ⟨a, rfl, h⟩

@[simp] theorem gives_none : ¬Gives none Q := fun ⟨_, h, _⟩ => Option.noConfusion rfl (heq_of_eq h)

theorem gives_congr (h : ∀ a, x = some a → (Q a ↔ Q' a)) : Gives x Q ↔ Gives x Q' := by
  cases x with
  | none => exact iff_of_false gives_none gives_none
  | some a => rw [gives_some, gives_some, h a rfl]

/-- The second part is asked what the whole is. -/
theorem gives_do {α β : Type u} {x : Option α} {f : α → Option β} {R : β → Prop} :
    Gives (x >>= f) R ↔ Gives x fun a => Gives (f a) R := by
  cases x with
  | none => exact iff_of_false gives_none gives_none
  | some a => rw [Option.bind_eq_bind, Option.bind_some, gives_some]

theorem gives_map {f : α → β} : Gives (x.map f) R ↔ Gives x fun a => R (f a) := by
  cases x with
  | none => exact iff_of_false gives_none gives_none
  | some a => rw [Option.map_some, gives_some, gives_some]

theorem gives_and_const {P : Prop} : (Gives x fun a => Q a ∧ P) ↔ Gives x Q ∧ P := by
  cases x with
  | none => exact iff_of_false gives_none fun h => gives_none h.1
  | some a => rw [gives_some, gives_some]

theorem gives_const_and {P : Prop} : (Gives x fun a => P ∧ Q a) ↔ P ∧ Gives x Q := by
  simp only [and_comm (a := P), gives_and_const]

/-- Where the computation is given up. -/
theorem gives_guard {P : Prop} [Decidable P] : Gives (if P then none else x) Q ↔ ¬P ∧ Gives x Q := by
  split
  · rename_i h
    exact iff_of_false gives_none fun h' => h'.1 h
  · rename_i h
    exact (and_iff_right h).symm

/-- Where the computation is over. -/
theorem gives_skip {P : Prop} [Decidable P] (ha : Q a) : Gives (if P then some a else x) Q ↔ (¬P → Gives x Q) := by
  split
  · rename_i h
    exact iff_of_true (gives_some.mpr ha) fun h' => absurd h h'
  · rename_i h
    exact ⟨fun h' _ => h', fun h' => h' h⟩

theorem gives_stop {P : Prop} [Decidable P] (ha : ¬Q a) : Gives (if P then some a else x) Q ↔ ¬P ∧ Gives x Q := by
  split
  · rename_i h
    exact iff_of_false (fun h' => ha (gives_some.mp h')) fun h' => h'.1 h
  · rename_i h
    exact (and_iff_right h).symm

end DeepStream
