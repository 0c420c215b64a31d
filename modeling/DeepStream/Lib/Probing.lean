/-
# Linear probing

A table of `size` slots that many threads fill at once. A key goes into the first of its slots that
is empty, and an entry stays, so what a search has passed stays passed (`Passed`) and each key is in
one slot only (`Placed.inj`). With fewer keys than slots no search goes once around (`Passed.le_card`).
-/
import Mathlib.Data.Finset.Card
import Mathlib.Data.Nat.ModEq

namespace DeepStream
namespace Probing

variable {κ ι : Type*} (hash : κ → ℕ) (size : ℕ) (keys : ℕ → Option κ)

/-- The slot after `j` steps: `slot = hash % size`, and then `slot = (slot + 1) % size`. -/
def slotAt (key : κ) (j : ℕ) : ℕ := (hash key + j) % size

/-- The first `j` slots of the key hold other keys. -/
def Passed (key : κ) (j : ℕ) : Prop := ∀ i < j, ∃ k, keys (slotAt hash size key i) = some k ∧ k ≠ key

/-- Each key is where a search for it stops. -/
def Placed : Prop := ∀ slot key, keys slot = some key → ∃ j, slot = slotAt hash size key j ∧ Passed hash size keys key j

/-- A search from the slot after `j` steps, of as many steps as the first argument says: `none` if it is not over
then, and `some none` if it has come to an empty slot. -/
def lookup [DecidableEq κ] (values : ℕ → ι) (key : κ) : ℕ → ℕ → Option (Option ι)
  | 0, _ => none
  | n + 1, j =>
    match keys (slotAt hash size key j) with
    | none => some none
    | some k => if k = key then some (some (values (slotAt hash size key j))) else lookup values key n (j + 1)

variable {hash size keys} {key k : κ} {slot slot' j : ℕ}

theorem Passed.succ (h : Passed hash size keys key j) (hslot : keys (slotAt hash size key j) = some k) (hne : k ≠ key) :
    Passed hash size keys key (j + 1) := fun i hi => by
  rcases Nat.lt_succ_iff_lt_or_eq.mp hi with hi | rfl
  · exact h i hi
  · exact ⟨k, hslot, hne⟩

theorem Passed.update (h : Passed hash size keys key j) (hnone : keys slot = none) :
    Passed hash size (Function.update keys slot (some k)) key j := fun i hi => by
  obtain ⟨k', hk', hne⟩ := h i hi
  refine ⟨k', ?_, hne⟩
  rwa [Function.update_of_ne]
  rintro rfl
  rw [hnone] at hk'
  cases hk'

theorem Placed.update (h : Placed hash size keys) (hnone : keys (slotAt hash size key j) = none)
    (hpassed : Passed hash size keys key j) :
    Placed hash size (Function.update keys (slotAt hash size key j) (some key)) := fun slot k hk => by
  by_cases hslot : slot = slotAt hash size key j
  · subst hslot
    rw [Function.update_self] at hk
    cases hk
    exact ⟨j, rfl, hpassed.update hnone⟩
  · rw [Function.update_of_ne hslot] at hk
    obtain ⟨i, hi, hp⟩ := h slot k hk
    exact ⟨i, hi, hp.update hnone⟩

/-- A key is in one slot. -/
theorem Placed.inj (h : Placed hash size keys) (hslot : keys slot = some key) (hslot' : keys slot' = some key) : slot = slot' := by
  obtain ⟨j, rfl, hj⟩ := h slot key hslot
  obtain ⟨j', rfl, hj'⟩ := h slot' key hslot'
  rcases lt_trichotomy j j' with hlt | rfl | hlt
  · obtain ⟨k, hk, hne⟩ := hj' j hlt
    exact absurd (Option.some.inj (hk.symm.trans hslot)) hne
  · rfl
  · obtain ⟨k, hk, hne⟩ := hj j' hlt
    exact absurd (Option.some.inj (hk.symm.trans hslot')) hne

/-- A search passes at most as many slots as there are keys. -/
theorem Passed.le_card {S : Finset κ} (hpassed : Passed hash size keys key j) (h : Placed hash size keys)
    (hmem : ∀ slot k, keys slot = some k → k ∈ S) (hcard : S.card < size) : j ≤ S.card := by
  by_contra hlt
  have hsome : ∀ i ∈ Finset.range (S.card + 1), ∃ k ∈ S, keys (slotAt hash size key i) = some k := fun i hi => by
    obtain ⟨k, hk, -⟩ := hpassed i (by have := Finset.mem_range.mp hi; omega)
    exact ⟨k, hmem _ _ hk, hk⟩
  have : Nonempty κ := ⟨key⟩
  choose! f hf using hsome
  have hle : (Finset.range (S.card + 1)).card ≤ S.card := Finset.card_le_card_of_injOn f (fun i hi => (hf i hi).1) fun i hi i' hi' heq => by
    have hslots : slotAt hash size key i = slotAt hash size key i' := h.inj (hf i hi).2 (by rw [heq]; exact (hf i' hi').2)
    have hmod := Nat.ModEq.add_left_cancel' (hash key) hslots
    have hi := Finset.mem_range.mp hi
    have hi' := Finset.mem_range.mp hi'
    exact hmod.eq_of_lt_of_lt (by omega) (by omega)
  rw [Finset.card_range] at hle
  omega

/-- A search for a key that is there finds it. -/
theorem lookup_eq [DecidableEq κ] {values : ℕ → ι} (hslot : keys (slotAt hash size key j) = some key)
    (hpassed : Passed hash size keys key j) {n i : ℕ} (hi : i ≤ j) (hn : j < i + n) :
    lookup hash size keys values key n i = some (some (values (slotAt hash size key j))) := by
  induction n generalizing i with
  | zero => omega
  | succ n ih =>
    rw [lookup]
    rcases hi.eq_or_lt with rfl | hlt
    · rw [hslot]
      exact if_pos rfl
    · obtain ⟨k, hk, hne⟩ := hpassed i hlt
      rw [hk]
      exact (if_neg hne).trans (ih hlt (by omega))

end Probing
end DeepStream
