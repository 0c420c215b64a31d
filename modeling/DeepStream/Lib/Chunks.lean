/-
# Filling batches

A loop puts one element after another into a batch and closes the batch when it
holds `n` of them; what is left at the end is closed too. The batches are the
elements in order, cut into chunks of at most `n`.
-/
import Mathlib.Data.List.Basic

namespace DeepStream
namespace Chunks

variable {α : Type*} {n : ℕ}

/-- The batches that are closed from `batch` on. -/
def fill (n : ℕ) (batch : List α) : List α → List (List α)
  | [] => if batch.isEmpty then [] else [batch]
  | a :: l => if batch.length + 1 = n then (batch ++ [a]) :: fill n [] l else fill n (batch ++ [a]) l

/-- The chunks of a list, of at most `n` elements. -/
def chunks (n : ℕ) (l : List α) : List (List α) := fill n [] l

@[simp] theorem chunks_nil : chunks n ([] : List α) = [] := rfl

theorem fill_cons_full {batch : List α} {a : α} (h : batch.length + 1 = n) (l : List α) :
    fill n batch (a :: l) = (batch ++ [a]) :: chunks n l := if_pos h

theorem fill_cons_of_ne {batch : List α} {a : α} (h : batch.length + 1 ≠ n) (l : List α) :
    fill n batch (a :: l) = fill n (batch ++ [a]) l := if_neg h

/-- The last element closes the batch, full or not. -/
theorem fill_singleton (batch : List α) (a : α) : fill n batch [a] = [batch ++ [a]] := by
  by_cases h : batch.length + 1 = n
  · rw [fill_cons_full h, chunks_nil]
  · rw [fill_cons_of_ne h, fill, if_neg (by simp)]

theorem flatten_fill : ∀ (batch l : List α), (fill n batch l).flatten = batch ++ l
  | batch, [] => by
    unfold fill
    split
    · rename_i h
      simp [List.isEmpty_iff.mp h]
    · simp
  | batch, a :: l => by
    by_cases h : batch.length + 1 = n
    · rw [fill_cons_full h, List.flatten_cons, chunks, flatten_fill [] l]
      simp
    · rw [fill_cons_of_ne h, flatten_fill (batch ++ [a]) l]
      simp

/-- Every element is in one chunk, and the chunks are in order. -/
theorem flatten_chunks (l : List α) : (chunks n l).flatten = l := flatten_fill [] l

/-- The first chunk, and the chunks of what is left. -/
theorem fill_eq_take : ∀ (batch l : List α), batch.length < n → l ≠ [] →
    fill n batch l = (batch ++ l.take (n - batch.length)) :: chunks n (l.drop (n - batch.length))
  | _, [], _, hne => absurd rfl hne
  | batch, a :: l, hlt, _ => by
    obtain ⟨m, hm⟩ : ∃ m, n - batch.length = m + 1 := ⟨n - batch.length - 1, by omega⟩
    rw [hm, List.take_succ_cons, List.drop_succ_cons]
    by_cases h : batch.length + 1 = n
    · obtain rfl : m = 0 := by omega
      rw [fill_cons_full h, List.take_zero, List.drop_zero]
    · rw [fill_cons_of_ne h]
      have hlen : (batch ++ [a]).length = batch.length + 1 := by simp
      by_cases hl : l = []
      · subst hl
        rw [List.take_nil, List.drop_nil, chunks_nil, fill, if_neg (by simp)]
      · have hm' : n - (batch ++ [a]).length = m := by omega
        rw [fill_eq_take (batch ++ [a]) l (by omega) hl, hm', List.append_assoc, List.singleton_append]

theorem chunks_eq_take (hn : 0 < n) {l : List α} (hl : l ≠ []) : chunks n l = l.take n :: chunks n (l.drop n) :=
  fill_eq_take [] l hn hl

theorem fill_map {β : Type*} (f : α → β) : ∀ batch l : List α,
    fill n (batch.map f) (l.map f) = (fill n batch l).map (List.map f)
  | batch, [] => by
    unfold fill
    cases batch <;> rfl
  | batch, a :: l => by
    have hlen : (batch.map f).length = batch.length := List.length_map f
    rw [List.map_cons]
    by_cases h : batch.length + 1 = n
    · rw [fill_cons_full h, fill_cons_full (hlen ▸ h), chunks, chunks, ← List.map_nil (f := f), fill_map f [] l]
      simp
    · rw [fill_cons_of_ne h, fill_cons_of_ne (hlen ▸ h), ← fill_map f (batch ++ [a]) l]
      simp

theorem chunks_map {β : Type*} (f : α → β) (l : List α) : chunks n (l.map f) = (chunks n l).map (List.map f) :=
  fill_map f [] l

theorem of_mem_fill : ∀ {batch : List α} (l : List α), batch.length < n → ∀ c ∈ fill n batch l, c ≠ [] ∧ c.length ≤ n
  | batch, [], hb, c, hc => by
    unfold fill at hc
    split at hc
    · cases hc
    · rename_i h
      rw [List.mem_singleton.mp hc]
      exact ⟨fun he => h (by rw [he]; rfl), Nat.le_of_lt hb⟩
  | batch, a :: l, hb, c, hc => by
    by_cases h : batch.length + 1 = n
    · rw [fill_cons_full h, List.mem_cons] at hc
      rcases hc with rfl | hc
      · exact ⟨by simp, by simp [h]⟩
      · exact of_mem_fill l (by show 0 < n; omega) c hc
    · rw [fill_cons_of_ne h] at hc
      exact of_mem_fill l (by rw [List.length_append, List.length_singleton]; omega) c hc

theorem ne_nil_of_mem {l c : List α} (hn : 0 < n) (hc : c ∈ chunks n l) : c ≠ [] := (of_mem_fill l hn c hc).1

/-- No chunk is larger than `n`. -/
theorem length_le_of_mem {l c : List α} (hn : 0 < n) (hc : c ∈ chunks n l) : c.length ≤ n :=
  (of_mem_fill l hn c hc).2

end Chunks
end DeepStream
