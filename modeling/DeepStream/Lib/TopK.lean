/-
# The highest places of a row

A row has a score at each of `n` places. Scores are compared as floats are: what is not
`≤` itself is no number, and it is above and below nothing. `std::partial_sort` puts the
`k` highest entries in front when all scores are numbers; what it does with equal scores,
and what it leaves otherwise, is open. `Shows` says of a list that it has the places among
the `k` highest that are not below a threshold.
-/
import Mathlib.Data.List.Perm.Subperm
import Mathlib.Data.List.Range
import Mathlib.Order.Lattice

namespace DeepStream

section

variable {R : Type*} {row : ℕ → R} {n : ℕ}

/-- The entries of a row. -/
def entries (row : ℕ → R) (n : ℕ) : List (ℕ × R) := (List.range n).map fun j => (j, row j)

theorem mem_entries {e : ℕ × R} : e ∈ entries row n ↔ e.1 < n ∧ e.2 = row e.1 := by
  obtain ⟨j, a⟩ := e
  simp only [entries, List.mem_map, List.mem_range, Prod.mk.injEq]
  constructor
  · rintro ⟨_, hj, rfl, rfl⟩
    exact ⟨hj, rfl⟩
  · rintro ⟨hj, rfl⟩
    exact ⟨j, hj, rfl, rfl⟩

theorem length_entries (row : ℕ → R) (n : ℕ) : (entries row n).length = n := by
  rw [entries, List.length_map, List.length_range]

theorem map_fst_entries : (entries row n).map Prod.fst = List.range n := by
  rw [entries, List.map_map]
  exact List.map_id _

def withScores (row : ℕ → R) (places : List ℕ) : List (ℕ × R) := places.map fun j => (j, row j)

theorem withScores_congr {row' : ℕ → R} {places : List ℕ} (h : ∀ j ∈ places, row' j = row j) :
    withScores row' places = withScores row places :=
  List.map_congr_left fun j hj => by rw [h j hj]

theorem length_le_of_subset {places places' : List ℕ} (hnodup : places.Nodup) (h : places ⊆ places') :
    places.length ≤ places'.length :=
  (List.subperm_of_subset hnodup h).length_le

end

/-- The order of the floats. -/
class FloatOrder (R : Type*) extends LE R, LT R where
  trans {a b c : R} : a ≤ b → b ≤ c → a ≤ c
  number {a b : R} : a ≤ b → a ≤ a ∧ b ≤ b
  total {a b : R} : a ≤ a → b ≤ b → a ≤ b ∨ b ≤ a
  lt_iff {a b : R} : a < b ↔ a ≤ b ∧ ¬b ≤ a
  decidableLT : DecidableLT R
  decidableLE : DecidableLE R

instance decidableLTOfFloatOrder {R : Type*} [FloatOrder R] : DecidableLT R := FloatOrder.decidableLT

instance decidableLEOfFloatOrder {R : Type*} [FloatOrder R] : DecidableLE R := FloatOrder.decidableLE

namespace FloatOrder

variable {R : Type*} [FloatOrder R] {a b c : R}

def IsNumber (a : R) : Prop := a ≤ a

instance (a : R) : Decidable (IsNumber a) := inferInstanceAs (Decidable (a ≤ a))

theorem lt_of_le_of_lt (hab : a ≤ b) (hbc : b < c) : a < c := by
  obtain ⟨hle, hnot⟩ := lt_iff.mp hbc
  exact lt_iff.mpr ⟨trans hab hle, fun hca => hnot (trans hca hab)⟩

theorem lt_trans (hab : a < b) (hbc : b < c) : a < c := lt_of_le_of_lt (lt_iff.mp hab).1 hbc

theorem lt_irrefl (a : R) : ¬a < a := fun h => (lt_iff.mp h).2 (lt_iff.mp h).1

theorem le_of_not_lt (ha : IsNumber a) (hb : IsNumber b) (h : ¬a < b) : b ≤ a := by
  rcases total ha hb with hab | hba
  · by_contra hba
    exact h (lt_iff.mpr ⟨hab, hba⟩)
  · exact hba

/-- What is below a threshold is below all numbers that are not. -/
theorem le_of_lt_of_not_lt (hb : IsNumber b) (hac : a < c) (hbc : ¬b < c) : a ≤ b := by
  have hc := (number (lt_iff.mp hac).1).2
  exact trans (lt_iff.mp hac).1 (le_of_not_lt hb hc hbc)

end FloatOrder

open FloatOrder

variable {R : Type*} [FloatOrder R] {row row' : ℕ → R} {n k : ℕ} {threshold : R}

/-- How many entries are higher. -/
def rank (l : List (ℕ × R)) (a : R) : ℕ := l.countP fun e => a < e.2

theorem countP_lt_countP {α : Type*} {p q : α → Bool} {l : List α} (h : ∀ a ∈ l, p a → q a) {a : α} (ha : a ∈ l)
    (hp : p a = false) (hq : q a = true) : l.countP p < l.countP q := by
  induction l with
  | nil => exact absurd ha List.not_mem_nil
  | cons b l ih =>
    rw [List.countP_cons, List.countP_cons]
    obtain ⟨hb, hl⟩ := List.forall_mem_cons.mp h
    have hmono := List.countP_mono_left hl
    rcases List.mem_cons.mp ha with rfl | ha
    · rw [hp, hq]
      simp only [Bool.false_eq_true, if_false, if_true]
      omega
    · have hlt := ih hl ha
      have hle : (if p b = true then 1 else 0) ≤ if q b = true then 1 else 0 := by
        by_cases hpb : p b = true
        · rw [if_pos hpb, if_pos (hb hpb)]
        · rw [if_neg hpb]
          exact Nat.zero_le _
      omega

theorem rank_le_rank {l : List (ℕ × R)} {a b : R} (h : a ≤ b) : rank l b ≤ rank l a :=
  List.countP_mono_left fun _ _ hb => decide_eq_true (lt_of_le_of_lt h (of_decide_eq_true hb))

theorem rank_lt_rank {l : List (ℕ × R)} {a : R} {e : ℕ × R} (he : e ∈ l) (h : a < e.2) : rank l e.2 < rank l a :=
  countP_lt_countP (fun _ _ hb => decide_eq_true (lt_trans h (of_decide_eq_true hb))) he
    (decide_eq_false (lt_irrefl _)) (decide_eq_true h)

theorem le_of_rank_le {l : List (ℕ × R)} {a : R} {e : ℕ × R} (he : e ∈ l) (ha : IsNumber a) (hnum : IsNumber e.2)
    (h : rank l a ≤ rank l e.2) : e.2 ≤ a :=
  le_of_not_lt ha hnum fun hlt => absurd (rank_lt_rank he hlt) (Nat.not_lt.mpr h)

/-- `std::partial_sort` with the greater score first. -/
structure PartialSort (R : Type*) [FloatOrder R] where
  run : ℕ → List (ℕ × R) → List (ℕ × R)
  perm {k : ℕ} {l : List (ℕ × R)} : (∀ e ∈ l, IsNumber e.2) → k ≤ l.length → (run k l).Perm l
  sorted {k : ℕ} {l : List (ℕ × R)} : (∀ e ∈ l, IsNumber e.2) → k ≤ l.length →
    ((run k l).take k).Pairwise fun a b => b.2 ≤ a.2
  highest {k : ℕ} {l : List (ℕ × R)} : (∀ e ∈ l, IsNumber e.2) → k ≤ l.length →
    ∀ a ∈ (run k l).take k, ∀ b ∈ (run k l).drop k, b.2 ≤ a.2

namespace PartialSort

/-- Higher scores first, and `j` first among equal ones. -/
def key (j : ℕ) (l : List (ℕ × R)) (e : ℕ × R) : ℕ := 2 * rank l e.2 + if e.1 = j then 0 else 1

def byKey (j : ℕ) (l : List (ℕ × R)) : List (ℕ × R) := l.mergeSort fun a b => key j l a ≤ key j l b

theorem rank_le_of_key_le {j : ℕ} {l : List (ℕ × R)} {a b : ℕ × R} (h : key j l a ≤ key j l b) :
    rank l a.2 ≤ rank l b.2 := by
  unfold key at h
  split at h <;> split at h <;> omega

theorem pairwise_byKey (j : ℕ) (l : List (ℕ × R)) : (byKey j l).Pairwise fun a b => key j l a ≤ key j l b := by
  have h : (byKey j l).Pairwise fun a b => decide (key j l a ≤ key j l b) = true := List.pairwise_mergeSort
    (fun a b c hab hbc => decide_eq_true ((of_decide_eq_true hab).trans (of_decide_eq_true hbc)))
    (fun a b => by simpa using Nat.le_total (key j l a) (key j l b)) l
  exact h.imp of_decide_eq_true

theorem perm_byKey (j : ℕ) (l : List (ℕ × R)) : (byKey j l).Perm l := List.mergeSort_perm l _

theorem pairwise_byKey_le {l : List (ℕ × R)} (h : ∀ e ∈ l, IsNumber e.2) (j : ℕ) :
    (byKey j l).Pairwise fun a b => b.2 ≤ a.2 := by
  have hmem : ∀ e ∈ byKey j l, e ∈ l := fun e he => (perm_byKey j l).mem_iff.mp he
  refine (pairwise_byKey j l).imp_of_mem fun ha hb hkey => ?_
  exact le_of_rank_le (hmem _ hb) (h _ (hmem _ ha)) (h _ (hmem _ hb)) (rank_le_of_key_le hkey)

/-- A sort that has `j` first among equal scores, and leaves nothing where there is no order. -/
def preferring (j : ℕ) : PartialSort R where
  run _ l := if ∀ e ∈ l, IsNumber e.2 then byKey j l else []
  perm := fun h _ => by
    rw [if_pos h]
    exact perm_byKey j _
  sorted := fun h _ => by
    rw [if_pos h]
    exact (pairwise_byKey_le h j).take
  highest := fun {k l} h _ a ha b hb => by
    rw [if_pos h] at ha hb
    have hsorted := pairwise_byKey_le h j
    rw [← List.take_append_drop k (byKey j l), List.pairwise_append] at hsorted
    exact hsorted.2.2 a ha b hb

end PartialSort

/-- `k` highest places of the row, or all where there are fewer. -/
structure IsTop (row : ℕ → R) (n k : ℕ) (top : List ℕ) : Prop where
  nodup : top.Nodup
  lt : ∀ j ∈ top, j < n
  length : top.length = min k n
  highest : ∀ t ∈ top, ∀ j < n, j ∉ top → row j ≤ row t

/-- The places whose scores are not below the threshold. -/
def passing (row : ℕ → R) (threshold : R) (places : List ℕ) : List ℕ :=
  places.filter fun j => decide ¬row j < threshold

/-- The entries of `k` highest places that are not below the threshold, the higher ones first. -/
def Shows (row : ℕ → R) (n k : ℕ) (threshold : R) (out : List (ℕ × R)) : Prop :=
  (∃ top, IsTop row n k top ∧ out = withScores row (passing row threshold top)) ∧ out.Pairwise fun a b => b.2 ≤ a.2

/-- The places that the sort has in front. -/
def PartialSort.front (S : PartialSort R) (row : ℕ → R) (n k : ℕ) : List ℕ :=
  ((S.run (min k n) (entries row n)).take (min k n)).map Prod.fst

theorem mem_passing {j : ℕ} {places : List ℕ} :
    j ∈ passing row threshold places ↔ j ∈ places ∧ ¬row j < threshold := by
  simp [passing]

theorem isNumber_entries (h : ∀ j < n, IsNumber (row j)) : ∀ e ∈ entries row n, IsNumber e.2 := fun e he => by
  obtain ⟨hlt, hrow⟩ := mem_entries.mp he
  exact hrow ▸ h e.1 hlt

namespace PartialSort

variable {S : PartialSort R}

theorem perm_entries (S : PartialSort R) (h : ∀ j < n, IsNumber (row j)) (k : ℕ) :
    (S.run (min k n) (entries row n)).Perm (entries row n) :=
  S.perm (isNumber_entries h) (by rw [length_entries]; exact Nat.min_le_right _ _)

theorem take_eq_withScores (h : ∀ j < n, IsNumber (row j)) :
    (S.run (min k n) (entries row n)).take (min k n) = withScores row (S.front row n k) := by
  rw [withScores, front, List.map_map]
  refine (List.map_id _).symm.trans (List.map_congr_left fun e he => ?_)
  have hmem := mem_entries.mp ((S.perm_entries h k).mem_iff.mp (List.mem_of_mem_take he))
  exact Prod.ext rfl hmem.2

theorem isTop (h : ∀ j < n, IsNumber (row j)) : IsTop row n k (S.front row n k) where
  nodup := by
    have hnodup : ((S.run (min k n) (entries row n)).map Prod.fst).Nodup := by
      rw [((S.perm_entries h k).map Prod.fst).nodup_iff, map_fst_entries]
      exact List.nodup_range
    exact hnodup.sublist ((List.take_sublist _ _).map _)
  lt := fun j hj => by
    obtain ⟨e, he, rfl⟩ := List.mem_map.mp hj
    exact (mem_entries.mp ((S.perm_entries h k).mem_iff.mp (List.mem_of_mem_take he))).1
  length := by
    rw [front, List.length_map, List.length_take, (S.perm_entries h k).length_eq, length_entries]
    exact Nat.min_eq_left (Nat.min_le_right _ _)
  highest := fun t ht j hj hjt => by
    obtain ⟨e, he, rfl⟩ := List.mem_map.mp ht
    have hrow := (mem_entries.mp ((S.perm_entries h k).mem_iff.mp (List.mem_of_mem_take he))).2
    have hjmem : (j, row j) ∈ S.run (min k n) (entries row n) :=
      (S.perm_entries h k).mem_iff.mpr (mem_entries.mpr ⟨hj, rfl⟩)
    rw [← List.take_append_drop (min k n) (S.run (min k n) (entries row n)), List.mem_append] at hjmem
    have hdrop := hjmem.resolve_left fun htake => hjt (List.mem_map_of_mem htake)
    exact hrow ▸ S.highest (isNumber_entries h) (by rw [length_entries]; exact Nat.min_le_right _ _) e he _ hdrop

theorem sorted_passing (h : ∀ j < n, IsNumber (row j)) :
    (withScores row (passing row threshold (S.front row n k))).Pairwise fun a b => b.2 ≤ a.2 := by
  have hsorted := S.sorted (isNumber_entries h) (k := min k n) (by rw [length_entries]; exact Nat.min_le_right _ _)
  rw [take_eq_withScores h] at hsorted
  exact hsorted.sublist (List.filter_sublist.map _)

/-- Some sort has a place in front that fewer than `k` are above. -/
theorem exists_mem (h : ∀ j < n, IsNumber (row j)) {j : ℕ} (hj : j < n) (hrank : rank (entries row n) (row j) < k) :
    ∃ S : PartialSort R, j ∈ S.front row n k := by
  refine ⟨preferring j, ?_⟩
  by_contra hjt
  have hrun : (preferring j).run (min k n) (entries row n) = byKey j (entries row n) := if_pos (isNumber_entries h)
  have hperm := perm_byKey j (entries row n)
  have hjmem := hperm.mem_iff.mpr (mem_entries.mpr ⟨hj, rfl⟩ : (j, row j) ∈ entries row n)
  have hlen : ((byKey j (entries row n)).take (min k n)).length = min k n := by
    rw [List.length_take, hperm.length_eq, length_entries]
    exact Nat.min_eq_left (Nat.min_le_right _ _)
  have hsorted := pairwise_byKey j (entries row n)
  rw [← List.take_append_drop (min k n) (byKey j (entries row n))] at hjmem hsorted
  have hdrop := (List.mem_append.mp hjmem).resolve_left fun htake => hjt (by
    rw [front, hrun]
    exact List.mem_map_of_mem htake)
  -- all in front are higher, so that there are `k` of them
  have hhigher : ∀ e ∈ (byKey j (entries row n)).take (min k n), row j < e.2 := fun e he => by
    have hkey := (List.pairwise_append.mp hsorted).2.2 e he _ hdrop
    have hmem := hperm.mem_iff.mp (List.mem_of_mem_take he)
    have hne : e.1 ≠ j := fun heq => hjt (by
      rw [front, hrun]
      exact List.mem_map.mpr ⟨e, he, heq⟩)
    have hlt : rank (entries row n) e.2 < rank (entries row n) (row j) := by
      simp only [key, if_neg hne, if_true] at hkey
      omega
    by_contra hnot
    have hle := le_of_not_lt (h j hj) (isNumber_entries h e hmem) hnot
    exact absurd (rank_le_rank hle) (Nat.not_le.mpr hlt)
  have hcount : min k n ≤ rank (entries row n) (row j) := by
    calc min k n = ((byKey j (entries row n)).take (min k n)).countP (fun e => row j < e.2) := by
          rw [List.countP_eq_length.mpr fun e he => decide_eq_true (hhigher e he), hlen]
      _ ≤ (byKey j (entries row n)).countP (fun e => row j < e.2) := (List.take_sublist _ _).countP_le
      _ = rank (entries row n) (row j) := hperm.countP_eq _
  have hall : min k n = n := by omega
  rw [hall, List.drop_eq_nil_of_le (by rw [hperm.length_eq, length_entries])] at hdrop
  exact List.not_mem_nil hdrop

end PartialSort

theorem IsTop.perm {top places : List ℕ} (h : IsTop row n k top) (hp : places.Perm top) : IsTop row n k places where
  nodup := hp.nodup_iff.mpr h.nodup
  lt := fun j hj => h.lt j (hp.mem_iff.mp hj)
  length := hp.length_eq.trans h.length
  highest := fun t ht j hj hjt => h.highest t (hp.mem_iff.mp ht) j hj fun hmem => hjt (hp.mem_iff.mpr hmem)

/-- The place is among the `k` highest, or as high as the last of them, and not below the threshold. -/
structure Reported (row : ℕ → R) (n k : ℕ) (threshold : R) (j : ℕ) : Prop where
  lt : j < n
  rank_lt : rank (entries row n) (row j) < k
  passes : ¬row j < threshold

theorem IsTop.rank_lt {top : List ℕ} (h : IsTop row n k top) {t : ℕ} (ht : t ∈ top) :
    rank (entries row n) (row t) < k := by
  have hhigher : (List.range n).filter (fun j => row t < row j) ⊆ top.erase t := fun j hj => by
    obtain ⟨hjn, hlt⟩ := List.mem_filter.mp hj
    have hlt : row t < row j := of_decide_eq_true hlt
    have hne : j ≠ t := fun heq => lt_irrefl (row t) (heq ▸ hlt)
    refine (List.mem_erase_of_ne hne).mpr (Classical.byContradiction fun hjt => ?_)
    exact (lt_iff.mp hlt).2 (h.highest t ht j (List.mem_range.mp hjn) hjt)
  have hlen := length_le_of_subset (List.nodup_range.filter _) hhigher
  rw [List.length_erase_of_mem ht, h.length, ← List.countP_eq_length_filter] at hlen
  have hpos : 0 < min k n := h.length ▸ List.length_pos_of_mem ht
  have hrank : rank (entries row n) (row t) = (List.range n).countP fun j => row t < row j := by
    rw [rank, entries, List.countP_map]
    rfl
  rw [hrank]
  omega

theorem IsTop.reported {top : List ℕ} (h : IsTop row n k top) {t : ℕ} (ht : t ∈ passing row threshold top) :
    Reported row n k threshold t := by
  obtain ⟨ht, hpasses⟩ := mem_passing.mp ht
  exact ⟨h.lt t ht, h.rank_lt ht, hpasses⟩

/-- What may be shown of `row` is right for `row'` too: it has the same scores there, and no other place
is above one of them, or not below the threshold where fewer than `k` are shown. -/
def Agrees (row row' : ℕ → R) (n k : ℕ) (threshold : R) : Prop :=
  ∀ j < n, (Reported row n k threshold j → row' j = row j) ∧
    (¬Reported row n k threshold j → (∀ t, Reported row n k threshold t → row' j ≤ row t) ∧
      ((passing row threshold (List.range n)).length < min k n → row' j < threshold))

theorem passing_subset {places : List ℕ} (h : ∀ j ∈ places, j < n) :
    passing row threshold places ⊆ passing row threshold (List.range n) := fun j hj => by
  obtain ⟨hmem, hpasses⟩ := mem_passing.mp hj
  exact mem_passing.mpr ⟨List.mem_range.mpr (h j hmem), hpasses⟩

theorem IsTop.nodup_passing {top : List ℕ} (h : IsTop row n k top) : (passing row threshold top).Nodup := h.nodup.filter _

/-- A place that is not below the threshold is in front when one that is below is. -/
theorem IsTop.mem_of_passes {top : List ℕ} (h : IsTop row n k top) {t j : ℕ} (ht : t ∈ top) (hlow : row t < threshold)
    (hj : j < n) (hpasses : ¬row j < threshold) : j ∈ top := by
  by_contra hjt
  exact hpasses (lt_of_le_of_lt (h.highest t ht j hj hjt) hlow)

theorem Agrees.exists_top {top : List ℕ} (h : Agrees row row' n k threshold) (hnum : ∀ j < n, IsNumber (row j))
    (htop : IsTop row n k top) :
    ∃ top', IsTop row' n k top' ∧ passing row' threshold top' = passing row threshold top := by
  have hsame : ∀ j ∈ passing row threshold top, row' j = row j := fun j hj =>
    (h j (htop.lt j (mem_passing.mp hj).1)).1 (htop.reported hj)
  by_cases hlow : ∃ t ∈ top, row t < threshold
  · -- fewer than `k` are shown, and all others are below the threshold in both rows
    obtain ⟨t, ht, hlow⟩ := hlow
    have hmem : ∀ j, Reported row n k threshold j → j ∈ passing row threshold top := fun j hj =>
      mem_passing.mpr ⟨htop.mem_of_passes ht hlow hj.lt hj.passes, hj.passes⟩
    have hfew : (passing row threshold (List.range n)).length < min k n := by
      have hsub : passing row threshold (List.range n) ⊆ top.erase t := fun j hj => by
        obtain ⟨hjn, hpasses⟩ := mem_passing.mp hj
        have hne : j ≠ t := fun heq => hpasses (heq ▸ hlow)
        exact (List.mem_erase_of_ne hne).mpr (htop.mem_of_passes ht hlow (List.mem_range.mp hjn) hpasses)
      have hlen := length_le_of_subset (List.nodup_range.filter _) hsub
      have hpos := List.length_pos_of_mem ht
      rw [List.length_erase_of_mem ht, htop.length] at hlen
      rw [htop.length] at hpos
      exact Nat.lt_of_le_of_lt hlen (by omega)
    have hother : ∀ j < n, ¬row' j < threshold → j ∈ passing row threshold top := fun j hj hpasses => by
      refine hmem j (Classical.byContradiction fun hnot => hpasses (((h j hj).2 hnot).2 hfew))
    have hnum' : ∀ j < n, IsNumber (row' j) := fun j hj => by
      by_cases hpasses : row' j < threshold
      · exact (number (lt_iff.mp hpasses).1).1
      · have hj' := hother j hj hpasses
        exact hsame j hj' ▸ hnum j hj
    obtain ⟨top', htop'⟩ : ∃ top', IsTop row' n k top' := ⟨_, (PartialSort.preferring 0).isTop hnum'⟩
    have hshort : (passing row threshold top).length < min k n :=
      Nat.lt_of_le_of_lt (length_le_of_subset htop.nodup_passing (passing_subset htop.lt)) hfew
    have hfront : (passing row' threshold top').Perm (passing row threshold top) := by
      refine (List.perm_ext_iff_of_nodup htop'.nodup_passing htop.nodup_passing).mpr fun j => ?_
      constructor
      · intro hj
        obtain ⟨hj, hpasses⟩ := mem_passing.mp hj
        exact hother j (htop'.lt j hj) hpasses
      · intro hj
        have hpasses : ¬row' j < threshold := hsame j hj ▸ (mem_passing.mp hj).2
        refine mem_passing.mpr ⟨Classical.byContradiction fun hjt => ?_, hpasses⟩
        -- otherwise all in front of `row'` are shown of `row`, and they are too many
        have hsub : top' ⊆ passing row threshold top := fun t ht => hother t (htop'.lt t ht) fun hlt =>
          hjt (htop'.mem_of_passes ht hlt (htop.lt j (mem_passing.mp hj).1) hpasses)
        have hlen := length_le_of_subset htop'.nodup hsub
        rw [htop'.length] at hlen
        omega
    refine ⟨passing row threshold top ++ top'.filter (fun j => !decide ¬row' j < threshold), ?_, ?_⟩
    · exact htop'.perm ((hfront.symm.append_right _).trans (List.filter_append_perm _ top'))
    · have hkeep : passing row' threshold (passing row threshold top) = passing row threshold top :=
        List.filter_eq_self.mpr fun j hj => decide_eq_true (hsame j hj ▸ (mem_passing.mp hj).2)
      have hdrop : passing row' threshold (top'.filter fun j => !decide ¬row' j < threshold) = [] := by
        refine List.filter_eq_nil_iff.mpr fun j hj => ?_
        simpa using (List.mem_filter.mp hj).2
      rw [passing, List.filter_append]
      exact (congrArg₂ (· ++ ·) hkeep hdrop).trans (List.append_nil _)
  · refine ⟨top, ⟨htop.nodup, htop.lt, htop.length, fun t ht j hj hjt => ?_⟩, ?_⟩
    · have hpass : ∀ t ∈ top, t ∈ passing row threshold top := fun t ht =>
        mem_passing.mpr ⟨ht, fun hlt => hlow ⟨t, ht, hlt⟩⟩
      rw [hsame t (hpass t ht)]
      by_cases hrep : Reported row n k threshold j
      · rw [(h j hj).1 hrep]
        exact htop.highest t ht j hj hjt
      · exact ((h j hj).2 hrep).1 t (htop.reported (hpass t ht))
    · refine List.filter_congr fun j hj => ?_
      rw [hsame j (mem_passing.mpr ⟨hj, fun hlt => hlow ⟨j, hj, hlt⟩⟩)]

/-- What a sort shows of `row`. -/
def PartialSort.shown (S : PartialSort R) (row : ℕ → R) (n k : ℕ) (threshold : R) : List (ℕ × R) :=
  withScores row (passing row threshold (S.front row n k))

theorem PartialSort.filter_run (S : PartialSort R) (h : ∀ j < n, IsNumber (row j)) :
    ((S.run (min k n) (entries row n)).take (min k n)).filter (fun e => decide ¬e.2 < threshold) =
      S.shown row n k threshold := by
  rw [take_eq_withScores h, withScores, List.filter_map]
  rfl

/-- Where there is no order nothing can be shown. -/
theorem isNumber_of_shows_nil (hpos : 0 < min k n) (h : Shows row n k threshold []) : ∀ j < n, IsNumber (row j) := by
  obtain ⟨⟨top, htop, hout⟩, -⟩ := h
  have hnone : ∀ t ∈ top, row t < threshold := fun t ht => by
    by_contra hpasses
    have hmem : (t, row t) ∈ withScores row (passing row threshold top) :=
      List.mem_map_of_mem (mem_passing.mpr ⟨ht, hpasses⟩)
    rw [← hout] at hmem
    exact List.not_mem_nil hmem
  intro j hj
  by_cases hjt : j ∈ top
  · exact (number (lt_iff.mp (hnone j hjt)).1).1
  · obtain ⟨t, ht⟩ := List.exists_mem_of_length_pos (htop.length ▸ hpos)
    exact (number (htop.highest t ht j hj hjt)).1

theorem Agrees.shows (h : Agrees row row' n k threshold) (hnum : ∀ j < n, IsNumber (row j)) (S : PartialSort R) :
    Shows row' n k threshold (S.shown row n k threshold) := by
  have htop : IsTop row n k (S.front row n k) := S.isTop hnum
  obtain ⟨top', htop', hpassing⟩ := h.exists_top hnum htop
  refine ⟨⟨top', htop', ?_⟩, PartialSort.sorted_passing hnum⟩
  rw [hpassing]
  exact (withScores_congr fun j hj => (h j (htop.lt j (mem_passing.mp hj).1)).1 (htop.reported hj)).symm

theorem agrees_of_shows (hnum : ∀ j < n, IsNumber (row j))
    (h : ∀ S : PartialSort R, Shows row' n k threshold (S.shown row n k threshold)) : Agrees row row' n k threshold := by
  -- what a sort shows is in front of `row'` with the same score
  have hshown : ∀ (S : PartialSort R) {top : List ℕ}, IsTop row' n k top →
      S.shown row n k threshold = withScores row' (passing row' threshold top) →
      ∀ j ∈ passing row threshold (S.front row n k), j ∈ passing row' threshold top ∧ row' j = row j := by
    intro S top _ hout j hj
    have hmem : (j, row j) ∈ S.shown row n k threshold := List.mem_map_of_mem hj
    rw [hout] at hmem
    obtain ⟨_, hj', heq⟩ := List.mem_map.mp hmem
    obtain ⟨rfl, hrow⟩ := Prod.mk.inj heq
    exact ⟨hj', hrow⟩
  have hlow : ∀ (S : PartialSort R) {top : List ℕ}, IsTop row' n k top →
      S.shown row n k threshold = withScores row' (passing row' threshold top) →
      ∀ j ∈ top, ¬Reported row n k threshold j → row' j < threshold := by
    intro S top htop hout j hj hnot
    by_contra hpasses
    have hmem : (j, row' j) ∈ S.shown row n k threshold :=
      hout ▸ List.mem_map_of_mem (mem_passing.mpr ⟨hj, hpasses⟩)
    obtain ⟨_, hj', heq⟩ := List.mem_map.mp hmem
    obtain ⟨rfl, -⟩ := Prod.mk.inj heq
    exact hnot ((S.isTop hnum).reported hj')
  have hsame : ∀ t, Reported row n k threshold t → ∃ S : PartialSort R, t ∈ passing row threshold (S.front row n k) := by
    intro t ht
    obtain ⟨S, hS⟩ := PartialSort.exists_mem hnum ht.lt ht.rank_lt
    exact ⟨S, mem_passing.mpr ⟨hS, ht.passes⟩⟩
  intro j hj
  refine ⟨fun hrep => ?_, fun hnot => ⟨fun t ht => ?_, fun hfew => ?_⟩⟩
  · obtain ⟨S, hS⟩ := hsame j hrep
    obtain ⟨⟨top, htop, hout⟩, -⟩ := h S
    exact (hshown S htop hout j hS).2
  · obtain ⟨S, hS⟩ := hsame t ht
    obtain ⟨⟨top, htop, hout⟩, -⟩ := h S
    obtain ⟨htmem, hrow⟩ := hshown S htop hout t hS
    obtain ⟨htmem, hpasses⟩ := mem_passing.mp htmem
    by_cases hjt : j ∈ top
    · exact le_of_lt_of_not_lt (hnum t ht.lt) (hlow S htop hout j hjt hnot) ht.passes
    · exact hrow ▸ htop.highest t htmem j hj hjt
  · obtain ⟨⟨top, htop, hout⟩, -⟩ := h (PartialSort.preferring 0)
    by_cases hjt : j ∈ top
    · exact hlow _ htop hout j hjt hnot
    · -- not all in front are shown, and the others are below the threshold
      obtain ⟨u, hu, hlt⟩ : ∃ u ∈ top, row' u < threshold := by
        by_contra hnone
        have hall : passing row' threshold top = top :=
          List.filter_eq_self.mpr fun u hu => decide_eq_true fun hlt => hnone ⟨u, hu, hlt⟩
        have hlen := congrArg List.length hout
        rw [PartialSort.shown, withScores, withScores, List.length_map, List.length_map, hall, htop.length] at hlen
        have hsubset : passing row threshold _ ⊆ passing row threshold (List.range n) :=
          passing_subset ((PartialSort.preferring 0).isTop hnum (k := k)).lt
        have hle := length_le_of_subset ((PartialSort.preferring 0).isTop hnum (k := k)).nodup_passing hsubset
        omega
      exact lt_of_le_of_lt (htop.highest u hu j hj hjt) hlt

/-- What a sort of `row` shows is right for `row'` whatever the sort does with equal scores. -/
theorem shows_iff_agrees (hnum : ∀ j < n, IsNumber (row j)) :
    (∀ S : PartialSort R, Shows row' n k threshold (S.shown row n k threshold)) ↔ Agrees row row' n k threshold :=
  ⟨agrees_of_shows hnum, fun h S => h.shows hnum S⟩

end DeepStream
