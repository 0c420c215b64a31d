/-
# The latest entry of a key in a queue

A queue holds batches of entries, each a key with a version, the oldest batch
first. `Latest q k n` says that the newest batch with an entry of `k` has the
version `n` of it, and that no older batch has. It is kept when the oldest batch
leaves, when a batch without the version is dropped, and when entries of other
keys are added to the newest batch; a version that no batch has may become the
latest one.
-/
import Mathlib.Data.List.Basic

namespace DeepStream

variable {κ ν : Type*} {q q' : List (List (κ × ν))} {b : List (κ × ν)} {k k' : κ} {n n' : ν}

structure Latest (q : List (List (κ × ν))) (k : κ) (n : ν) : Prop where
  last : q.Pairwise fun b b' => k ∈ b'.map Prod.fst → (k, n) ∉ b
  exists_mem : ∀ b ∈ q, k ∈ b.map Prod.fst → ∃ b' ∈ q, (k, n) ∈ b'

theorem mem_keys_of_mem (h : (k, n) ∈ b) : k ∈ b.map Prod.fst := List.mem_map.mpr ⟨_, h, rfl⟩

namespace Latest

theorem of_not_mem (h : ∀ b ∈ q, k ∉ b.map Prod.fst) : Latest q k n :=
  ⟨List.pairwise_of_forall_mem_list fun _ _ y hy hk => absurd hk (h y hy), fun x hx hk => absurd hk (h x hx)⟩

/-- A batch without the version may be dropped anywhere. -/
theorem drop (h : Latest (q ++ b :: q') k n) (hb : (k, n) ∉ b) : Latest (q ++ q') k n := by
  refine ⟨h.last.sublist ((List.Sublist.refl q).append (List.sublist_cons_self b q')), fun x hx hk => ?_⟩
  have hx' : x ∈ q ++ b :: q' := by
    simp only [List.mem_append, List.mem_cons] at hx ⊢
    exact hx.imp_right .inr
  obtain ⟨y, hy, hn⟩ := h.exists_mem x hx' hk
  refine ⟨y, ?_, hn⟩
  simp only [List.mem_append, List.mem_cons] at hy ⊢
  obtain hy | rfl | hy := hy
  · exact .inl hy
  · exact absurd hn hb
  · exact .inr hy

/-- The oldest batch is only the latest of the key if it is the last one. -/
theorem mem_tail_iff (h : Latest (b :: q) k n) :
    (∃ b' ∈ q, (k, n) ∈ b') ↔ (∃ b' ∈ b :: q, (k, n) ∈ b') ∧ (k, n) ∉ b := by
  constructor
  · rintro ⟨b', hb', hn⟩
    exact ⟨⟨b', List.mem_cons_of_mem b hb', hn⟩, (List.pairwise_cons.mp h.last).1 b' hb' (mem_keys_of_mem hn)⟩
  · rintro ⟨⟨b', hb', hn⟩, hb⟩
    obtain rfl | hb' := List.mem_cons.mp hb'
    · exact absurd hn hb
    · exact ⟨b', hb', hn⟩

/-- The oldest batch leaves. -/
theorem tail (h : Latest (b :: q) k n) : Latest q k n := by
  refine ⟨(List.pairwise_cons.mp h.last).2, fun x hx hk => h.mem_tail_iff.mpr ⟨?_, ?_⟩⟩
  · exact h.exists_mem x (List.mem_cons_of_mem b hx) hk
  · exact (List.pairwise_cons.mp h.last).1 x hx hk

/-- A new batch without entries of the key. -/
theorem append (h : Latest q k n) (hb : k ∉ b.map Prod.fst) : Latest (q ++ [b]) k n := by
  refine ⟨List.pairwise_append.mpr ⟨h.last, List.pairwise_singleton _ b, ?_⟩, fun x hx hk => ?_⟩
  · intro x _ y hy hk
    obtain rfl := List.mem_singleton.mp hy
    exact absurd hk hb
  · obtain hx | hx := List.mem_append.mp hx
    · obtain ⟨y, hy, hn⟩ := h.exists_mem x hx hk
      exact ⟨y, List.mem_append_left _ hy, hn⟩
    · obtain rfl := List.mem_singleton.mp hx
      exact absurd hk hb

/-- A version that no batch has becomes the latest one. -/
theorem enter (h : ∀ x ∈ q, (k, n) ∉ x) : Latest (q ++ [b ++ [(k, n)]]) k n := by
  have hq : q.Pairwise fun b b' => k ∈ b'.map Prod.fst → (k, n) ∉ b :=
    List.pairwise_of_forall_mem_list fun x hx _ _ _ => h x hx
  refine ⟨List.pairwise_append.mpr ⟨hq, List.pairwise_singleton _ _, fun x hx _ _ _ => h x hx⟩, fun _ _ _ => ?_⟩
  exact ⟨b ++ [(k, n)], by simp, by simp⟩

/-- An entry of another key is added to the newest batch. -/
theorem enter_other (h : Latest (q ++ [b]) k n) (hk : k' ≠ k) : Latest (q ++ [b ++ [(k', n')]]) k n := by
  have hkeys : k ∈ (b ++ [(k', n')]).map Prod.fst ↔ k ∈ b.map Prod.fst := by
    simp [hk.symm]
  have hmem : (k, n) ∈ b ++ [(k', n')] ↔ (k, n) ∈ b := by
    simp [hk.symm]
  obtain ⟨hq, -, hlast⟩ := List.pairwise_append.mp h.last
  refine ⟨List.pairwise_append.mpr ⟨hq, List.pairwise_singleton _ _, ?_⟩, fun x hx hkx => ?_⟩
  · intro x hx y hy hky
    obtain rfl := List.mem_singleton.mp hy
    exact hlast x hx b (by simp) (hkeys.mp hky)
  · have hold : ∃ y ∈ q ++ [b], (k, n) ∈ y := by
      obtain hx | hx := List.mem_append.mp hx
      · exact h.exists_mem x (List.mem_append_left _ hx) hkx
      · obtain rfl := List.mem_singleton.mp hx
        exact h.exists_mem b (by simp) (hkeys.mp hkx)
    obtain ⟨y, hy, hn⟩ := hold
    obtain hy | hy := List.mem_append.mp hy
    · exact ⟨y, List.mem_append_left _ hy, hn⟩
    · obtain rfl := List.mem_singleton.mp hy
      exact ⟨_, by simp, hmem.mpr hn⟩

end Latest
end DeepStream
