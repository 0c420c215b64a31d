/-
# What a pool has given out

A pool gives things out and takes them back. `Loans out held` says that the things
that are out are those that the holders have between them, and that no two
holders have the same one.
-/
import Mathlib.Data.List.Perm.Basic

namespace DeepStream

variable {α : Type*} {out held held' : List α} {a : α}

structure Loans (out held : List α) : Prop where
  perm : out.Perm held
  nodup : out.Nodup

namespace Loans

theorem nil : Loans ([] : List α) [] := ⟨.refl _, List.nodup_nil⟩

theorem held_nodup (h : Loans out held) : held.Nodup := h.perm.nodup h.nodup

/-- A thing changes hands. -/
theorem of_perm (h : Loans out held) (hp : held.Perm held') : Loans out held' := ⟨h.perm.trans hp, h.nodup⟩

/-- The pool gives a thing that is not out. -/
theorem acquire (h : Loans out held) (ha : a ∉ out) : Loans (a :: out) (a :: held) :=
  ⟨h.perm.cons a, List.nodup_cons.mpr ⟨ha, h.nodup⟩⟩

variable [DecidableEq α]

theorem release (h : Loans out (a :: held)) : Loans (out.erase a) held := by
  refine ⟨?_, h.nodup.erase a⟩
  have hp := h.perm.erase a
  rwa [List.erase_cons_head] at hp

theorem releaseAll : ∀ {l : List α} {out : List α}, Loans out (l ++ held) → Loans (l.foldl List.erase out) held
  | [], _, h => h
  | a :: l, out, h => by
    have hrest : Loans (out.erase a) (l ++ held) := Loans.release h
    show Loans (l.foldl List.erase (out.erase a)) held
    exact releaseAll hrest

/-- Any of the holders gives a thing back. -/
theorem release_of_mem {l : List α} (h : Loans out (l ++ held)) (ha : a ∈ held) :
    Loans (out.erase a) (l ++ held.erase a) := by
  refine Loans.release (h.of_perm ?_)
  calc (l ++ held).Perm (l ++ a :: held.erase a) := (List.perm_cons_erase ha).append_left l
    _ |>.Perm (a :: (l ++ held.erase a)) := List.perm_middle

end Loans
end DeepStream
