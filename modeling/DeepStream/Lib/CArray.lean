/-
# Arrays and strings of C

An array of a fixed length that a loop fills one element after the other, where a round may have
nothing to fill it with; and an array of characters that has a string in it, up to the terminator.
-/
import Mathlib.Data.Vector.Basic
import Mathlib.Data.List.TakeWhile

namespace DeepStream

/-! ### Loops that fill an array -/

section
variable {α : Type*} {f : ℕ → Option α} {n : ℕ} {l : List α}

/-- Element `i` is `f i`. -/
def tabulate (f : ℕ → Option α) : ℕ → Option (List α)
  | 0 => some []
  | n + 1 => (tabulate f n).bind fun l => (f n).map fun a => l ++ [a]

theorem tabulate_eq_some_iff : tabulate f n = some l ↔ l.length = n ∧ ∀ i < n, f i = l[i]? := by
  induction n generalizing l with
  | zero =>
    rw [tabulate, Option.some.injEq, List.length_eq_zero_iff, eq_comm]
    exact (and_iff_left fun i hi => absurd hi (Nat.not_lt_zero i)).symm
  | succ n ih =>
    rw [tabulate, Option.bind_eq_some_iff]
    constructor
    · rintro ⟨l, hl, hmap⟩
      obtain ⟨a, ha, rfl⟩ := Option.map_eq_some_iff.mp hmap
      obtain ⟨hlen, heq⟩ := ih.mp hl
      refine ⟨by rw [List.length_append, List.length_singleton, hlen], fun i hi => ?_⟩
      rcases Nat.lt_succ_iff_lt_or_eq.mp hi with hlt | rfl
      · rw [heq i hlt, List.getElem?_append_left (hlen.symm ▸ hlt)]
      · rw [ha, ← hlen, List.getElem?_concat_length]
    · rintro ⟨hlen, heq⟩
      have hne : l ≠ [] := by
        rintro rfl
        cases hlen
      have hinit : l.dropLast.length = n := by rw [List.length_dropLast, hlen, Nat.add_sub_cancel]
      refine ⟨l.dropLast, ih.mpr ⟨hinit, fun i hi => ?_⟩, Option.map_eq_some_iff.mpr ⟨l.getLast hne, ?_, ?_⟩⟩
      · rw [heq i (Nat.lt_succ_of_lt hi), List.getElem?_dropLast, if_pos (by omega)]
      · rw [heq n (Nat.lt_succ_self n), ← List.getLast?_eq_some_getLast hne, List.getLast?_eq_getElem?, hlen,
          Nat.add_sub_cancel]
      · exact List.dropLast_concat_getLast hne

theorem tabulate_isSome_iff : (tabulate f n).isSome ↔ ∀ i < n, (f i).isSome := by
  refine ⟨fun h i hi => ?_, fun h => ?_⟩
  · obtain ⟨l, hl⟩ := Option.isSome_iff_exists.mp h
    obtain ⟨hlen, heq⟩ := tabulate_eq_some_iff.mp hl
    rw [heq i hi, List.getElem?_eq_getElem (hlen.symm ▸ hi)]
    rfl
  · induction n with
    | zero => rfl
    | succ n ih =>
      obtain ⟨l, hl⟩ := Option.isSome_iff_exists.mp (ih fun i hi => h i (Nat.lt_succ_of_lt hi))
      obtain ⟨a, ha⟩ := Option.isSome_iff_exists.mp (h n (Nat.lt_succ_self n))
      rw [tabulate, hl, Option.bind_some, ha]
      rfl

theorem tabulate_some {g : ℕ → α} (h : ∀ i < n, f i = some (g i)) : tabulate f n = some ((List.range n).map g) := by
  refine tabulate_eq_some_iff.mpr ⟨by rw [List.length_map, List.length_range], fun i hi => ?_⟩
  rw [h i hi, List.getElem?_map, List.getElem?_range hi]
  rfl

end

/-! ### Strings -/

/-- The string in an array of characters, if there is a terminator. -/
def cString (buf : List UInt8) : Option (List UInt8) := if 0 ∈ buf then some (buf.takeWhile (· ≠ 0)) else none

theorem cString_eq_some {buf text : List UInt8} (h : cString buf = some text) : 0 ∉ text ∧ text.length < buf.length := by
  unfold cString at h
  split at h
  · rename_i hmem
    obtain rfl := Option.some.inj h
    refine ⟨fun hzero => ?_, ?_⟩
    · have hne := List.mem_takeWhile_imp hzero
      simp at hne
    · refine lt_of_le_of_ne (List.takeWhile_sublist _).length_le fun hlen => ?_
      have hall := (List.takeWhile_prefix (p := fun c : UInt8 => decide (c ≠ 0)) (l := buf)).eq_of_length hlen
      have hne := List.takeWhile_eq_self_iff.mp hall 0 hmem
      simp at hne
  · cases h

/-- As much of the text as there is room for, and a terminator. -/
def strlcpy {n : ℕ} (buf : List.Vector UInt8 (n + 1)) (text : List UInt8) : List.Vector UInt8 (n + 1) :=
  ⟨text.take n ++ 0 :: buf.toList.drop ((text.take n).length + 1), by
    have hlen : (text.take n).length ≤ n := List.length_take_le _ _
    rw [List.length_append, List.length_cons, List.length_drop, buf.toList_length]
    omega⟩

theorem cString_strlcpy {n : ℕ} (buf : List.Vector UInt8 (n + 1)) {text : List UInt8} (h : 0 ∉ text) :
    cString (strlcpy buf text).toList = some (text.take n) := by
  show cString (text.take n ++ 0 :: buf.toList.drop ((text.take n).length + 1)) = _
  have hno : ∀ c ∈ text.take n, decide (c ≠ 0) = true := by
    intro c hc
    exact decide_eq_true fun heq => h (heq ▸ List.mem_of_mem_take hc)
  rw [cString, if_pos (List.mem_append_right _ List.mem_cons_self), List.takeWhile_append_of_pos hno,
    List.takeWhile_cons_of_neg (by simp), List.append_nil]

end DeepStream
