/-
# Choosing from a list

A greedy choice goes through a list and takes each element that is compatible with those
taken before. What it takes are compatible with each other, and what it leaves is not compatible
with one taken that came earlier: in a list in the order of a preference, with one that is
preferred.

The front of a list that is sorted by a key are elements of highest key. Whether the elements
at a threshold count or not makes no difference to them if there are enough above it, or none at it.
-/
import Mathlib.Data.List.Nodup
import Mathlib.Order.Lattice

namespace DeepStream

variable {α β κ : Type*}

/-! ### Greedy choices -/

/-- `chosen` is chosen from `l`: `ok a b` says that `a` may come to `b`, `pref b a` that `b` is
preferred to `a`. -/
structure Greedily (ok pref : α → α → Prop) (l chosen : List α) : Prop where
  sublist : chosen.Sublist l
  compatible : chosen.Pairwise fun b a => ok a b
  left : ∀ a ∈ l, a ∈ chosen ∨ ∃ b ∈ chosen, pref b a ∧ ¬ ok a b

namespace Greedily

variable {ok pref : α → α → Prop} {l chosen : List α}

theorem nil : Greedily ok pref [] [] := ⟨.slnil, .nil, fun _ h => absurd h List.not_mem_nil⟩

/-- The element is taken. -/
theorem take (h : Greedily ok pref l chosen) {a : α} (ha : ∀ b ∈ chosen, ok a b) :
    Greedily ok pref (l ++ [a]) (chosen ++ [a]) where
  sublist := h.sublist.append (List.Sublist.refl _)
  compatible := by
    refine List.pairwise_append.mpr ⟨h.compatible, List.pairwise_singleton _ _, fun b hb c hc => ?_⟩
    rw [List.mem_singleton.mp hc]
    exact ha b hb
  left := by
    intro c hc
    rcases List.mem_append.mp hc with hl | hlast
    · rcases h.left c hl with hmem | ⟨b, hb, hbad⟩
      · exact .inl (List.mem_append_left _ hmem)
      · exact .inr ⟨b, List.mem_append_left _ hb, hbad⟩
    · exact .inl (List.mem_append_right _ hlast)

/-- The element is left. -/
theorem leave (h : Greedily ok pref l chosen) {a b : α} (hb : b ∈ chosen) (hpref : pref b a) (hbad : ¬ ok a b) :
    Greedily ok pref (l ++ [a]) chosen where
  sublist := h.sublist.trans (List.sublist_append_left _ _)
  compatible := h.compatible
  left := by
    intro c hc
    rcases List.mem_append.mp hc with hl | hlast
    · exact h.left c hl
    · rw [List.mem_singleton.mp hlast]
      exact .inr ⟨b, hb, hpref, hbad⟩

/-- The loop over a list in the order of the preference. -/
theorem foldl (f : β → α) {step : List α → β → List α}
    (htake : ∀ (chosen : List α) x, (∀ b ∈ chosen, ok (f x) b) → step chosen x = chosen ++ [f x])
    (hleave : ∀ (chosen : List α) x, ¬ (∀ b ∈ chosen, ok (f x) b) → step chosen x = chosen)
    {rest : List β} (h : Greedily ok pref l chosen) (hpref : (l ++ rest.map f).Pairwise pref) :
    Greedily ok pref (l ++ rest.map f) (rest.foldl step chosen) := by
  induction rest generalizing l chosen with
  | nil =>
    rw [List.map_nil, List.append_nil]
    exact h
  | cons x rest ih =>
    rw [List.map_cons, List.append_cons] at hpref ⊢
    rw [List.foldl_cons]
    refine ih ?_ hpref
    by_cases hok : ∀ b ∈ chosen, ok (f x) b
    · rw [htake chosen x hok]
      exact h.take hok
    · rw [hleave chosen x hok]
      push Not at hok
      obtain ⟨b, hb, hbad⟩ := hok
      have hbx : pref b (f x) := (List.pairwise_append.mp (List.pairwise_append.mp hpref).1).2.2 b
        (h.sublist.subset hb) (f x) (List.mem_singleton_self _)
      exact h.leave hb hbx hbad

end Greedily

/-! ### The highest elements -/

/-- `chosen` are `n` elements of `l` of highest key, or all of them. -/
def Highest [LE κ] (key : α → κ) (n : ℕ) (l chosen : List α) : Prop :=
  ∃ rest, l.Perm (chosen ++ rest) ∧ chosen.length = min n l.length ∧ ∀ a ∈ chosen, ∀ b ∈ rest, key b ≤ key a

namespace Highest

theorem mem [LE κ] {key : α → κ} {n : ℕ} {l chosen : List α} (h : Highest key n l chosen) {a : α} (ha : a ∈ chosen) :
    a ∈ l := by
  obtain ⟨rest, hperm, -, -⟩ := h
  exact hperm.mem_iff.mpr (List.mem_append_left _ ha)

theorem take_mergeSort [LinearOrder κ] (key : α → κ) (n : ℕ) (l : List α) {le : α → α → Bool}
    (hle : ∀ a b, le a b = true ↔ key b ≤ key a) : Highest key n l ((l.mergeSort le).take n) := by
  have hsorted : (l.mergeSort le).Pairwise fun a b => le a b = true := by
    refine List.pairwise_mergeSort (fun a b c hab hbc => ?_) (fun a b => ?_) l
    · rw [hle] at hab hbc ⊢
      exact hbc.trans hab
    · rw [Bool.or_eq_true, hle, hle]
      exact le_total _ _
  refine ⟨(l.mergeSort le).drop n, ?_, ?_, fun a ha b hb => ?_⟩
  · rw [List.take_append_drop]
    exact (List.mergeSort_perm l le).symm
  · rw [List.length_take, (List.mergeSort_perm l le).length_eq]
  · rw [← List.take_append_drop n (l.mergeSort le)] at hsorted
    exact (hle a b).mp ((List.pairwise_append.mp hsorted).2.2 a ha b hb)

theorem map [LE κ] {key : α → κ} {key' : β → κ} {f : α → β} (hf : ∀ a, key' (f a) = key a) {n : ℕ}
    {l chosen : List α} (h : Highest key n l chosen) : Highest key' n (l.map f) (chosen.map f) := by
  obtain ⟨rest, hperm, hlen, hle⟩ := h
  refine ⟨rest.map f, ?_, by rw [List.length_map, List.length_map, hlen], ?_⟩
  · rw [← List.map_append]
    exact hperm.map f
  · intro a ha b hb
    obtain ⟨a', ha', rfl⟩ := List.mem_map.mp ha
    obtain ⟨b', hb', rfl⟩ := List.mem_map.mp hb
    rw [hf, hf]
    exact hle a' ha' b' hb'

end Highest

/-! ### Elements at a threshold -/

section

variable [LinearOrder κ] (key : α → κ) (thr : κ) (l : List α)

def above : List α := l.filter fun a => decide (thr < key a)

def atLeast : List α := l.filter fun a => !decide (key a < thr)

end

variable [LinearOrder κ] {key : α → κ} {thr : κ} {l chosen : List α} {n : ℕ}

theorem mem_above {a : α} : a ∈ above key thr l ↔ a ∈ l ∧ thr < key a := by
  simp [above]

theorem atLeast_perm (key : α → κ) (thr : κ) (l : List α) :
    (atLeast key thr l).Perm (above key thr l ++ l.filter fun a => decide (key a = thr)) := by
  have habove : (atLeast key thr l).filter (fun a => decide (thr < key a)) = above key thr l := by
    unfold atLeast above
    rw [List.filter_filter]
    refine List.filter_congr fun a _ => ?_
    by_cases h : thr < key a
    · simp [h, le_of_lt h]
    · simp [h]
  have hrest : (atLeast key thr l).filter (fun a => !decide (thr < key a)) = l.filter fun a => decide (key a = thr) := by
    unfold atLeast
    rw [List.filter_filter]
    refine List.filter_congr fun a _ => ?_
    rw [Bool.eq_iff_iff]
    simp only [Bool.and_eq_true, Bool.not_eq_true', decide_eq_false_iff_not, decide_eq_true_eq, not_lt]
    exact ⟨fun ⟨h, h'⟩ => le_antisymm h h', fun h => ⟨h.le, h.ge⟩⟩
  rw [← habove, ← hrest]
  exact (List.filter_append_perm _ _).symm

theorem atLeast_eq_above (h : ∀ a ∈ l, key a ≠ thr) : atLeast key thr l = above key thr l := by
  refine List.filter_congr fun a ha => ?_
  rw [Bool.eq_iff_iff]
  simp only [Bool.not_eq_true', decide_eq_false_iff_not, decide_eq_true_eq, not_lt]
  exact ⟨fun hle => lt_of_le_of_ne hle (h a ha).symm, le_of_lt⟩

theorem length_above_lt {a : α} (ha : a ∈ l) (h : key a = thr) :
    (above key thr l).length < (atLeast key thr l).length := by
  have hmem : a ∈ l.filter fun a => decide (key a = thr) := List.mem_filter.mpr ⟨ha, by simpa using h⟩
  rw [(atLeast_perm key thr l).length_eq, List.length_append]
  exact Nat.lt_add_of_pos_right (List.length_pos_of_mem hmem)

namespace Highest

theorem of_above (h : Highest key n (above key thr l) chosen) (hn : n ≤ (above key thr l).length) :
    Highest key n (atLeast key thr l) chosen := by
  have hmem (a) (ha : a ∈ chosen) := (mem_above.mp (h.mem ha)).2
  obtain ⟨rest, hperm, hlen, hle⟩ := h
  refine ⟨rest ++ l.filter fun a => decide (key a = thr), ?_, ?_, fun a ha b hb => ?_⟩
  · rw [← List.append_assoc]
    exact (atLeast_perm key thr l).trans (hperm.append_right _)
  · rw [hlen, (atLeast_perm key thr l).length_eq, List.length_append]
    omega
  · rcases List.mem_append.mp hb with hr | heq
    · exact hle a ha b hr
    · rw [of_decide_eq_true (List.mem_filter.mp heq).2]
      exact (hmem a ha).le

/-- If there are enough above the threshold, none at it is among the highest. -/
theorem of_atLeast (h : Highest key n (atLeast key thr l) chosen) (hn : n ≤ (above key thr l).length) :
    Highest key n (above key thr l) chosen := by
  obtain ⟨rest, hperm, hlen, hle⟩ := h
  have hlen' : chosen.length = n := by
    rw [hlen, (atLeast_perm key thr l).length_eq, List.length_append]
    omega
  have hfilter : (above key thr l).Perm (chosen.filter (fun a => decide (thr < key a)) ++
      rest.filter fun a => decide (thr < key a)) := by
    have hp := ((atLeast_perm key thr l).symm.trans hperm).filter fun a => decide (thr < key a)
    rw [List.filter_append, List.filter_append] at hp
    have hself : (above key thr l).filter (fun a => decide (thr < key a)) = above key thr l :=
      List.filter_eq_self.mpr fun a ha => decide_eq_true (mem_above.mp ha).2
    have hnone : (l.filter fun a => decide (key a = thr)).filter (fun a => decide (thr < key a)) = [] := by
      refine List.filter_eq_nil_iff.mpr fun a ha => ?_
      rw [of_decide_eq_true (List.mem_filter.mp ha).2]
      simp
    rwa [hself, hnone, List.append_nil] at hp
  have hall : chosen.filter (fun a => decide (thr < key a)) = chosen := by
    refine List.filter_eq_self.mpr fun a ha => decide_eq_true ?_
    by_contra hna
    -- then none of the rest is above the threshold, and those of `chosen` that are do not reach `n`
    have hrest : rest.filter (fun a => decide (thr < key a)) = [] :=
      List.filter_eq_nil_iff.mpr fun b hb => by simpa using (hle a ha b hb).trans (not_lt.mp hna)
    have hlt : (chosen.filter fun a => decide (thr < key a)).length < chosen.length :=
      List.length_filter_lt_length_iff_exists.mpr ⟨a, ha, by simpa using hna⟩
    rw [hrest, List.append_nil] at hfilter
    have := hfilter.length_eq
    omega
  rw [hall] at hfilter
  exact ⟨_, hfilter, by omega, fun a ha b hb => hle a ha b (List.mem_filter.mp hb).1⟩

/-- The highest of those above the threshold, and of those that are at least at it. -/
theorem and_iff (h : Highest key n (above key thr l) chosen ∨ Highest key n (atLeast key thr l) chosen) :
    Highest key n (above key thr l) chosen ∧ Highest key n (atLeast key thr l) chosen ↔
      (∀ a ∈ l, key a ≠ thr) ∨ n ≤ (above key thr l).length := by
  constructor
  · rintro ⟨⟨-, -, hlt, -⟩, -, -, hle, -⟩
    refine or_iff_not_imp_left.mpr fun hne => ?_
    push Not at hne
    obtain ⟨a, ha, heq⟩ := hne
    have := length_above_lt ha heq
    omega
  · rintro (hne | hn)
    · rw [atLeast_eq_above hne, or_self] at h
      rw [atLeast_eq_above hne]
      exact ⟨h, h⟩
    · exact h.elim (fun h => ⟨h, h.of_above hn⟩) fun h => ⟨h.of_atLeast hn, h⟩

end Highest
end DeepStream
