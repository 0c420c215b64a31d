/-
# What the threads of a program hold

Each thread has a stack of frames, the top first, and a frame holds some things
(`own`). `held own threads` are all of them. A step of one thread changes its
stack only, and what all the threads hold changes by what that stack holds.
-/
import Mathlib.Data.List.Perm.Basic
import Mathlib.Data.List.Count

namespace DeepStream

theorem perm_set {α : Type*} {x y : α} : ∀ {l : List α} {i : ℕ}, l[i]? = some x →
    (x :: l.set i y).Perm (y :: l)
  | [], _, h => by simp at h
  | z :: l, 0, h => by
    have hz : z = x := by simpa using h
    subst hz
    exact List.Perm.swap _ _ _
  | z :: l, i + 1, h => by
    have ih : (x :: l.set i y).Perm (y :: l) := perm_set (by simpa using h)
    calc (x :: z :: l.set i y).Perm (z :: x :: l.set i y) := List.Perm.swap _ _ _
      _ |>.Perm (z :: y :: l) := ih.cons z
      _ |>.Perm (y :: z :: l) := List.Perm.swap _ _ _

namespace Stacks

variable {φ α : Type*} {threads : List (List φ)} {t : ℕ} {old new : List φ}

def held (own : φ → List α) (threads : List (List φ)) : List α := threads.flatten.flatMap own

theorem count_held_set [DecidableEq α] (own : φ → List α) (h : threads[t]? = some old) (a : α) :
    (held own (threads.set t new)).count a + (old.flatMap own).count a =
      (held own threads).count a + (new.flatMap own).count a := by
  have hperm : (old :: threads.set t new).Perm (new :: threads) := perm_set h
  have hheld := (hperm.flatten.flatMap_right own).count_eq a
  simp only [List.flatten_cons, List.flatMap_append, List.count_append] at hheld
  simp only [held]
  omega

/-- What holds of every frame is only to be shown again for the new stack. -/
theorem forall_set {P Q : φ → Prop} (hkeep : ∀ f, P f → Q f) (hall : ∀ stack ∈ threads, ∀ f ∈ stack, P f)
    (hnew : ∀ f ∈ new, Q f) : ∀ stack ∈ threads.set t new, ∀ f ∈ stack, Q f := by
  intro stack hstack f hf
  rcases List.mem_or_eq_of_mem_set hstack with hold | rfl
  · exact hkeep f (hall stack hold f hf)
  · exact hnew f hf

end Stacks
end DeepStream
