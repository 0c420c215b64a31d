/-
# Keyed tables

What the ordered maps of the standard library need for counting: the set of
keys of a table (`keySet`) and the set of keys whose value satisfies a
predicate (`holding`), and how an insertion and an erasure change them.
`touch` is the look-up by `operator[]`, which enters a default value under a
key that is absent.
-/
import Std.Data.TreeMap
import Mathlib.Algebra.BigOperators.Group.Finset.Basic

namespace DeepStream
namespace Table

open Std

variable {κ υ : Type*} [Ord κ] [TransOrd κ] [LawfulEqOrd κ] [DecidableEq κ]

/-- The keys of a table. -/
def keySet (m : TreeMap κ υ) : Finset κ := m.keys.toFinset

@[simp] theorem mem_keySet {m : TreeMap κ υ} {k : κ} : k ∈ keySet m ↔ k ∈ m := by
  simp [keySet]

theorem card_keySet (m : TreeMap κ υ) : (keySet m).card = m.size := by
  rw [keySet, List.toFinset_card_of_nodup, TreeMap.length_keys]
  exact m.distinct_keys.imp fun h he => h (by rw [he, compare_self])

theorem notMem_of_size_eq_zero {m : TreeMap κ υ} (h : m.size = 0) (k : κ) : k ∉ m := by
  rw [← mem_keySet, Finset.card_eq_zero.mp ((card_keySet m).trans h)]
  exact Finset.notMem_empty k

theorem keySet_insert (m : TreeMap κ υ) (k : κ) (v : υ) :
    keySet (m.insert k v) = insert k (keySet m) := by
  ext a
  simp only [mem_keySet, TreeMap.mem_insert, Finset.mem_insert, LawfulEqOrd.compare_eq_iff_eq]
  exact or_congr_left eq_comm

theorem keySet_erase (m : TreeMap κ υ) (k : κ) : keySet (m.erase k) = (keySet m).erase k := by
  ext a
  simp only [mem_keySet, TreeMap.mem_erase, Finset.mem_erase, ne_eq, LawfulEqOrd.compare_eq_iff_eq]
  exact and_congr_left' (not_congr eq_comm)

/-- Storing under a key that is present leaves the keys alone. -/
theorem keySet_insert_of_mem {m : TreeMap κ υ} {k : κ} (v : υ) (h : k ∈ m) :
    keySet (m.insert k v) = keySet m := by
  rw [keySet_insert, Finset.insert_eq_self.mpr (mem_keySet.mpr h)]

theorem getElem?_insert (m : TreeMap κ υ) (k a : κ) (v : υ) :
    (m.insert k v)[a]? = if a = k then some v else m[a]? := by
  rw [TreeMap.getElem?_insert]
  simp only [LawfulEqOrd.compare_eq_iff_eq]
  exact if_congr eq_comm rfl rfl

theorem getElem?_erase (m : TreeMap κ υ) (k a : κ) :
    (m.erase k)[a]? = if a = k then none else m[a]? := by
  rw [TreeMap.getElem?_erase]
  simp only [LawfulEqOrd.compare_eq_iff_eq]
  exact if_congr eq_comm rfl rfl

omit [DecidableEq κ] in
/-- The search for the only entry that satisfies `p`. -/
theorem find?_toList {m : TreeMap κ υ} {p : κ × υ → Bool} {k : κ} {v : υ} (hk : m[k]? = some v)
    (hp : p (k, v)) (hunique : ∀ k' v', m[k']? = some v' → p (k', v') → k' = k) :
    m.toList.find? p = some (k, v) := by
  have hmem : (k, v) ∈ m.toList := TreeMap.mem_toList_iff_getElem?_eq_some.mpr hk
  obtain ⟨e, he⟩ := Option.isSome_iff_exists.mp (List.find?_isSome.mpr ⟨_, hmem, hp⟩)
  have hek := TreeMap.mem_toList_iff_getElem?_eq_some.mp (List.mem_of_find?_eq_some he)
  have hkey := hunique e.1 e.2 hek (List.find?_some he)
  rw [hkey, hk] at hek
  rw [he, ← hkey, Option.some.inj hek]

/-- Look-up by `operator[]`: an absent key is entered with the value `d`. -/
def touch (m : TreeMap κ υ) (k : κ) (d : υ) : TreeMap κ υ := if k ∈ m then m else m.insert k d

theorem keySet_touch (m : TreeMap κ υ) (k : κ) (d : υ) :
    keySet (touch m k d) = insert k (keySet m) := by
  unfold touch
  split
  · rename_i h
    exact (Finset.insert_eq_self.mpr (mem_keySet.mpr h)).symm
  · exact keySet_insert m k d

theorem touch_getElem? (m : TreeMap κ υ) (k a : κ) (d : υ) :
    (touch m k d)[a]? = if a = k ∧ k ∉ m then some d else m[a]? := by
  unfold touch
  split
  · rename_i h
    simp [h]
  · rename_i h
    rw [TreeMap.getElem?_insert]
    simp only [LawfulEqOrd.compare_eq_iff_eq, h, not_false_eq_true, and_true]
    exact if_congr eq_comm rfl rfl

/-- The keys whose value satisfies `p`. -/
def holding (m : TreeMap κ υ) (p : υ → Bool) : Finset κ := (keySet m).filter fun k => (m[k]?).any p

theorem mem_holding {m : TreeMap κ υ} {p : υ → Bool} {k : κ} : k ∈ holding m p ↔ (m[k]?).any p := by
  rw [holding, Finset.mem_filter, mem_keySet, TreeMap.mem_iff_isSome_getElem?]
  cases m[k]? <;> simp

theorem holding_congr {m m' : TreeMap κ υ} {p p' : υ → Bool}
    (h : ∀ k : κ, (m[k]?).any p = (m'[k]?).any p') : holding m p = holding m' p' := by
  ext k
  rw [mem_holding, mem_holding, h]

theorem holding_insert (m : TreeMap κ υ) (p : υ → Bool) (k : κ) (v : υ) :
    holding (m.insert k v) p =
      if p v then insert k ((holding m p).erase k) else (holding m p).erase k := by
  ext a
  split <;> rename_i hp <;>
    simp only [mem_holding, TreeMap.getElem?_insert, LawfulEqOrd.compare_eq_iff_eq,
      Finset.mem_insert, Finset.mem_erase] <;>
    by_cases ha : k = a <;> simp [ha, hp, eq_comm (a := a)]

theorem holding_erase (m : TreeMap κ υ) (p : υ → Bool) (k : κ) :
    holding (m.erase k) p = (holding m p).erase k := by
  ext a
  simp only [mem_holding, TreeMap.getElem?_erase, LawfulEqOrd.compare_eq_iff_eq, Finset.mem_erase]
  by_cases ha : k = a
  · simp [ha]
  · simp [ha, Ne.symm ha]

/-- Storing a value changes the count by what the new and the old value under
that key contribute. -/
theorem card_holding_insert (m : TreeMap κ υ) (p : υ → Bool) (k : κ) (v : υ) :
    (holding (m.insert k v) p).card + (if (m[k]?).any p then 1 else 0) =
      (holding m p).card + if p v then 1 else 0 := by
  have hk : (m[k]?).any p = true ↔ k ∈ holding m p := mem_holding.symm
  rw [holding_insert]
  by_cases ho : k ∈ holding m p
  · have := Finset.card_erase_add_one ho
    rw [if_pos (hk.mpr ho)]
    split <;> simp_all
  · rw [if_neg (fun h => ho (hk.mp h)), Finset.erase_eq_of_notMem ho]
    split <;> simp_all

theorem card_holding_erase (m : TreeMap κ υ) (p : υ → Bool) (k : κ) :
    (holding (m.erase k) p).card + (if (m[k]?).any p then 1 else 0) = (holding m p).card := by
  have hk : (m[k]?).any p = true ↔ k ∈ holding m p := mem_holding.symm
  rw [holding_erase]
  by_cases ho : k ∈ holding m p
  · rw [if_pos (hk.mpr ho), Finset.card_erase_add_one ho]
  · rw [if_neg (fun h => ho (hk.mp h)), Finset.erase_eq_of_notMem ho, Nat.add_zero]

/-- A count that takes in every key: every value satisfies `p`. -/
theorem all_of_card_holding {m : TreeMap κ υ} {p : υ → Bool} (h : (holding m p).card = m.size)
    {k : κ} {v : υ} (hk : m[k]? = some v) : p v := by
  have hsub : holding m p ⊆ keySet m := Finset.filter_subset _ _
  have heq := Finset.eq_of_subset_of_card_le hsub (by rw [card_keySet, h])
  have hmem : k ∈ holding m p := by
    rw [heq, mem_keySet, TreeMap.mem_iff_isSome_getElem?, hk]
    rfl
  rw [mem_holding, hk] at hmem
  exact hmem

/-! ### The sum of the values -/

/-- The sum of the values of a table of integers. -/
def total (m : TreeMap κ ℤ) : ℤ := ∑ k ∈ keySet m, m.getD k 0

omit [LawfulEqOrd κ] in
@[simp] theorem total_empty : total (∅ : TreeMap κ ℤ) = 0 := by
  simp [total, keySet]

omit [DecidableEq κ] in
theorem getD_insert_of_ne (m : TreeMap κ ℤ) {k a : κ} (v : ℤ) (h : k ≠ a) :
    (m.insert k v).getD a 0 = m.getD a 0 := by
  rw [TreeMap.getD_insert, if_neg (mt LawfulEqOrd.compare_eq_iff_eq.mp h)]

theorem total_insert (m : TreeMap κ ℤ) (k : κ) (v : ℤ) :
    total (m.insert k v) + m.getD k 0 = total m + v := by
  have hrest : ∑ a ∈ (keySet m).erase k, (m.insert k v).getD a 0 =
      ∑ a ∈ (keySet m).erase k, m.getD a 0 :=
    Finset.sum_congr rfl fun a ha => getD_insert_of_ne m v (Finset.ne_of_mem_erase ha).symm
  have hnew : total (m.insert k v) = v + ∑ a ∈ (keySet m).erase k, m.getD a 0 := by
    rw [total, keySet_insert, ← Finset.add_sum_erase _ _ (Finset.mem_insert_self k _),
      Finset.erase_insert_eq_erase, hrest, TreeMap.getD_insert_self]
  have hold : total m = m.getD k 0 + ∑ a ∈ (keySet m).erase k, m.getD a 0 := by
    by_cases hk : k ∈ m
    · exact (Finset.add_sum_erase _ (fun a => m.getD a 0) (mem_keySet.mpr hk)).symm
    · rw [TreeMap.getD_eq_fallback hk, zero_add, total,
        Finset.erase_eq_of_notMem fun h => hk (mem_keySet.mp h)]
  rw [hnew, hold]
  omega

/-- An entry made by `operator[]` does not change the sum. -/
theorem total_touch (m : TreeMap κ ℤ) (k : κ) : total (touch m k 0) = total m := by
  unfold touch
  split
  · rfl
  · rename_i h
    have := total_insert m k 0
    rwa [TreeMap.getD_eq_fallback h, add_zero, add_zero] at this

theorem getD_touch (m : TreeMap κ υ) (k a : κ) (d : υ) : (touch m k d).getD a d = m.getD a d := by
  rw [TreeMap.getD_eq_getD_getElem?, touch_getElem?, TreeMap.getD_eq_getD_getElem?]
  split
  · rename_i h
    rw [h.1, TreeMap.getElem?_eq_none h.2]
    rfl
  · rfl

/-! ### Tables over the first numbers -/

section Nat

variable {m : TreeMap ℕ υ} {n : ℕ}

/-- A table with fewer than `n` keys leaves one of the first `n` numbers free. -/
theorem exists_free (h : m.size < n) : ∃ k < n, k ∉ m := by
  have hcard : (keySet m).card < (Finset.range n).card := by rwa [card_keySet, Finset.card_range]
  obtain ⟨k, hk, hfree⟩ := Finset.exists_mem_notMem_of_card_lt_card hcard
  exact ⟨k, Finset.mem_range.mp hk, fun hm => hfree (mem_keySet.mpr hm)⟩

/-- A table whose keys are below `n`, one of which is free, has fewer than `n`. -/
theorem size_lt_of_free {k : ℕ} (hlt : ∀ a ∈ m, a < n) (hk : k < n) (hfree : k ∉ m) : m.size < n := by
  rw [← card_keySet, ← Finset.card_range n]
  refine Finset.card_lt_card ⟨fun a ha => Finset.mem_range.mpr (hlt a (mem_keySet.mp ha)), fun hsub => ?_⟩
  exact hfree (mem_keySet.mp (hsub (Finset.mem_range.mpr hk)))

end Nat

end Table
end DeepStream
