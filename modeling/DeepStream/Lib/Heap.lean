/-
# A heap of allocations

What `malloc` and `free` see: an allocation is its address, an address is never
handed out twice, and freeing what is not allocated is undefined. `Allocates ps`
says that from one heap to the next exactly the addresses `ps`, each once, have
come to be allocated, so that whoever frees them all leaves the first heap behind
and whoever frees fewer does not.
-/
import Mathlib.Data.Finset.Basic

namespace DeepStream

/-- `next` bounds the addresses handed out so far. -/
structure Heap where
  next : ℕ
  live : Finset ℕ
  lt_next : ∀ p ∈ live, p < next
  deriving DecidableEq

namespace Heap

variable {h h' h'' : Heap} {p : ℕ} {ps qs : List ℕ}

def empty : Heap := ⟨0, ∅, by simp⟩

def alloc (h : Heap) : ℕ × Heap where
  fst := h.next
  snd := ⟨h.next + 1, insert h.next h.live, fun p hp => by
    obtain rfl | hp := Finset.mem_insert.mp hp
    · exact Nat.lt_succ_self _
    · exact Nat.lt_succ_of_lt (h.lt_next p hp)⟩

/-- Freeing the null pointer does nothing. -/
def free (h : Heap) : Option ℕ → Option Heap
  | none => some h
  | some p =>
    if p ∈ h.live then some ⟨h.next, h.live.erase p, fun q hq => h.lt_next q (Finset.mem_of_mem_erase hq)⟩
    else none

def freeAll (h : Heap) : List ℕ → Option Heap
  | [] => some h
  | p :: ps => (h.free (some p)).bind fun h => h.freeAll ps

theorem freeAll_append (h : Heap) (ps qs : List ℕ) :
    h.freeAll (ps ++ qs) = (h.freeAll ps).bind fun h => h.freeAll qs := by
  induction ps generalizing h with
  | nil => rfl
  | cons p ps ih =>
    rw [List.cons_append, freeAll, freeAll, Option.bind_assoc]
    exact congrArg _ (funext ih)

theorem free_eq_freeAll (h : Heap) (p : Option ℕ) : h.free p = h.freeAll p.toList := by
  cases p with
  | none => rfl
  | some p => exact (Option.bind_fun_some _).symm

/-- From `h` to `h'` the addresses `ps` have come to be allocated. -/
structure Allocates (h : Heap) (ps : List ℕ) (h' : Heap) : Prop where
  nodup : ps.Nodup
  disjoint : ∀ p ∈ ps, p ∉ h.live
  mem_live : ∀ p, p ∈ h'.live ↔ p ∈ h.live ∨ p ∈ ps

namespace Allocates

theorem refl (h : Heap) : Allocates h [] h :=
  ⟨List.nodup_nil, by simp, by simp⟩

theorem alloc (h : Heap) : Allocates h [h.alloc.1] h.alloc.2 where
  nodup := List.nodup_singleton _
  disjoint p hp hl := by
    obtain rfl := List.mem_singleton.mp hp
    exact Nat.lt_irrefl _ (h.lt_next _ hl)
  mem_live p := by simp [Heap.alloc, or_comm]

theorem append (h₁ : Allocates h ps h') (h₂ : Allocates h' qs h'') : Allocates h (ps ++ qs) h'' where
  nodup := List.nodup_append.mpr ⟨h₁.nodup, h₂.nodup, fun p hp q hq hpq =>
    h₂.disjoint q hq ((h₁.mem_live q).mpr (Or.inr (hpq ▸ hp)))⟩
  disjoint p hp hl := by
    obtain hp | hp := List.mem_append.mp hp
    · exact h₁.disjoint p hp hl
    · exact h₂.disjoint p hp ((h₁.mem_live p).mpr (Or.inl hl))
  mem_live p := by
    rw [h₂.mem_live, h₁.mem_live, List.mem_append, or_assoc]

theorem perm (ha : Allocates h ps h') (hp : ps.Perm qs) : Allocates h qs h' where
  nodup := hp.nodup_iff.mp ha.nodup
  disjoint p hq := ha.disjoint p (hp.mem_iff.mpr hq)
  mem_live p := by rw [ha.mem_live, hp.mem_iff]

/-- What has been allocated can be freed. -/
theorem freeAll : ∀ {ps : List ℕ} {h' : Heap}, Allocates h (ps ++ qs) h' →
    ∃ h'', h'.freeAll ps = some h'' ∧ Allocates h qs h''
  | [], h', ha => ⟨h', rfl, ha⟩
  | p :: ps, h', ha => by
    have hl : p ∈ h'.live := (ha.mem_live p).mpr (Or.inr (by simp))
    obtain ⟨hp, hn⟩ := List.nodup_cons.mp (by simpa using ha.nodup : (p :: (ps ++ qs)).Nodup)
    have hnot := ha.disjoint p (by simp)
    have hrest : Allocates h (ps ++ qs)
        ⟨h'.next, h'.live.erase p, fun q hq => h'.lt_next q (Finset.mem_of_mem_erase hq)⟩ := by
      refine ⟨hn, fun q hq => ha.disjoint q (by simp [List.mem_append.mp hq]), fun q => ?_⟩
      rw [Finset.mem_erase, ha.mem_live, List.cons_append, List.mem_cons]
      constructor
      · rintro ⟨hne, hq | rfl | hq⟩
        · exact Or.inl hq
        · exact absurd rfl hne
        · exact Or.inr hq
      · rintro (hq | hq)
        · exact ⟨fun e => hnot (e ▸ hq), Or.inl hq⟩
        · exact ⟨fun e => hp (e ▸ hq), Or.inr (Or.inr hq)⟩
    obtain ⟨h'', hf, ha'⟩ := freeAll hrest
    refine ⟨h'', ?_, ha'⟩
    rw [Heap.freeAll, Heap.free, if_pos hl, Option.bind_some]
    exact hf

/-- Nothing is left over only when nothing else was allocated. -/
theorem live_eq_iff (ha : Allocates h ps h') : h'.live = h.live ↔ ps = [] := by
  constructor
  · intro he
    refine List.eq_nil_iff_forall_not_mem.mpr fun p hp => ha.disjoint p hp ?_
    rw [← he, ha.mem_live]
    exact Or.inr hp
  · rintro rfl
    ext p
    simp [ha.mem_live]

end Allocates
end Heap
end DeepStream
