/-
# The priority groups of the batch policy

The sources of one priority are a segment of the multimap, and `group` is that
segment read off directly. `WellKeyed` is what the constructor establishes and
what adding a source keeps: both containers are sorted, a source occurs once,
and the priorities are exactly those of the sources.
-/
import DeepStream.Mux.Batch

namespace DeepStream
namespace Mux

/-! ### The sorted list of priorities -/

theorem mem_sortedInsert_go (v x : ℕ) : ∀ l : List ℕ, x ∈ sortedInsert.go v l ↔ x = v ∨ x ∈ l
  | [] => by simp [sortedInsert.go]
  | y :: l => by
    have ih := mem_sortedInsert_go v x l
    unfold sortedInsert.go
    split
    · simp only [List.mem_cons, ih]
      tauto
    · split
      · simp
      · rename_i h
        simp only [ne_eq, not_not] at h
        simp [h]

theorem mem_sortedInsert {v x : ℕ} {l : List ℕ} : x ∈ sortedInsert l v ↔ x = v ∨ x ∈ l := by
  unfold sortedInsert
  cases l with
  | nil => simp
  | cons y l =>
    dsimp only
    split
    · simp
    · exact mem_sortedInsert_go v x _

theorem pairwise_sortedInsert_go (v : ℕ) : ∀ {l : List ℕ}, l.Pairwise (· < ·) →
    (sortedInsert.go v l).Pairwise (· < ·)
  | [], _ => List.pairwise_singleton _ _
  | y :: l, h => by
    obtain ⟨hy, hl⟩ := List.pairwise_cons.mp h
    unfold sortedInsert.go
    split
    · rename_i hlt
      refine List.pairwise_cons.mpr ⟨fun x hx => ?_, pairwise_sortedInsert_go v hl⟩
      rcases (mem_sortedInsert_go v x l).mp hx with rfl | hx
      · exact hlt
      · exact hy x hx
    · rename_i hle
      split
      · refine List.pairwise_cons.mpr ⟨fun x hx => ?_, h⟩
        rcases List.mem_cons.mp hx with rfl | hx
        · omega
        · have := hy x hx
          omega
      · exact h

theorem pairwise_sortedInsert {l : List ℕ} (v : ℕ) (h : l.Pairwise (· < ·)) :
    (sortedInsert l v).Pairwise (· < ·) := by
  unfold sortedInsert
  cases l with
  | nil => exact List.pairwise_singleton _ _
  | cons y l =>
    dsimp only
    split
    · rename_i hlt
      refine List.pairwise_cons.mpr ⟨fun x hx => ?_, h⟩
      rcases List.mem_cons.mp hx with rfl | hx
      · exact hlt
      · have := (List.pairwise_cons.mp h).1 x hx
        omega
    · exact pairwise_sortedInsert_go v h

/-- The default priority is the least: it is inserted at the front. -/
theorem sortedInsert_default {l : List ℕ} (h : l.Pairwise (· < ·)) :
    sortedInsert l defaultSourceGroupPriority =
      if defaultSourceGroupPriority ∈ l then l else defaultSourceGroupPriority :: l := by
  unfold defaultSourceGroupPriority
  cases l with
  | nil => rfl
  | cons y l =>
    have hy := (List.pairwise_cons.mp h).1
    by_cases h0 : y = 0
    · simp [sortedInsert, sortedInsert.go, h0]
    · have hmem : 0 ∉ y :: l := by
        intro hm
        rcases List.mem_cons.mp hm with hm | hm
        · exact h0 hm.symm
        · have := hy 0 hm
          omega
      rw [if_neg hmem, sortedInsert, if_pos (Nat.pos_of_ne_zero h0)]

/-! ### The multimap -/

theorem multimapInsert_perm (key : ℤ) (v : ℕ) : ∀ l : List (ℤ × ℕ),
    (multimapInsert l key v).Perm ((key, v) :: l)
  | [] => List.Perm.refl _
  | e :: l => by
    unfold multimapInsert
    split
    · exact List.Perm.refl _
    · exact ((multimapInsert_perm key v l).cons e).trans (List.Perm.swap _ _ _)

theorem pairwise_multimapInsert (key : ℤ) (v : ℕ) : ∀ {l : List (ℤ × ℕ)},
    l.Pairwise (fun a b => a.1 ≤ b.1) → (multimapInsert l key v).Pairwise fun a b => a.1 ≤ b.1
  | [], _ => List.pairwise_singleton _ _
  | e :: l, h => by
    obtain ⟨he, hl⟩ := List.pairwise_cons.mp h
    unfold multimapInsert
    split
    · rename_i hlt
      refine List.pairwise_cons.mpr ⟨fun x hx => ?_, h⟩
      rcases List.mem_cons.mp hx with rfl | hx
      · exact hlt.le
      · exact hlt.le.trans (he x hx)
    · rename_i hle
      refine List.pairwise_cons.mpr ⟨fun x hx => ?_, pairwise_multimapInsert key v hl⟩
      rcases List.mem_cons.mp ((multimapInsert_perm key v l).mem_iff.mp hx) with rfl | hx
      · exact not_lt.mp hle
      · exact he x hx

/-- The sources with key `k`, in order. -/
def group (l : List (ℤ × ℕ)) (k : ℤ) : List ℕ := (l.filter fun e => decide (e.1 = k)).map Prod.snd

theorem mem_group {l : List (ℤ × ℕ)} {k : ℤ} {id : ℕ} : id ∈ group l k ↔ (k, id) ∈ l := by
  simp [group, List.mem_map, List.mem_filter]

theorem length_group_multimapInsert (l : List (ℤ × ℕ)) (key k : ℤ) (v : ℕ) :
    (group (multimapInsert l key v) k).length = (group l k).length + if key = k then 1 else 0 := by
  have h := ((multimapInsert_perm key v l).filter fun e => decide (e.1 = k)).length_eq
  simp only [group, List.length_map]
  rw [h, List.filter_cons]
  by_cases hk : key = k <;> simp [hk]

/-- Up to and with the key `k`, a sorted multimap is what is below `k` and then
the entries with key `k`. -/
theorem takeWhile_le_eq (k : ℤ) : ∀ {l : List (ℤ × ℕ)}, l.Pairwise (fun a b => a.1 ≤ b.1) →
    (l.takeWhile fun e => decide (e.1 ≤ k)) =
      (l.takeWhile fun e => decide (e.1 < k)) ++ l.filter fun e => decide (e.1 = k)
  | [], _ => rfl
  | e :: l, h => by
    obtain ⟨he, hl⟩ := List.pairwise_cons.mp h
    have ih := takeWhile_le_eq k hl
    rcases lt_trichotomy e.1 k with hlt | heq | hgt
    · simp [hlt, hlt.le, hlt.ne, ih]
    · have hnil : (l.takeWhile fun e => decide (e.1 < k)) = [] := by
        cases l with
        | nil => rfl
        | cons y l =>
          have := he y (by simp)
          rw [List.takeWhile_cons_of_neg]
          simpa [← heq] using this
      rw [hnil, List.nil_append] at ih
      simp [heq, ih]
    · have hnil : (l.filter fun e => decide (e.1 = k)) = [] := by
        rw [List.filter_eq_nil_iff]
        intro y hy
        have := he y hy
        simp only [decide_eq_true_eq]
        omega
      simp [hgt.not_ge, hgt.not_gt, hgt.ne', hnil]

section Segment

variable {l : List (ℤ × ℕ)} (hl : l.Pairwise fun a b => a.1 ≤ b.1) (k : ℤ)
include hl

theorem upperBound_eq : upperBound l k = lowerBound l k + (group l k).length := by
  rw [upperBound, takeWhile_le_eq k hl, List.length_append, lowerBound, group, List.length_map]

/-- The positions between the two bounds hold the group, in order. -/
theorem getElem?_segment {i : ℕ} (hi : i < (group l k).length) :
    l[lowerBound l k + i]? = some (k, (group l k)[i]) := by
  have hi' : i < (l.filter fun e => decide (e.1 = k)).length := by simpa [group] using hi
  have hkey : (l.filter fun e => decide (e.1 = k))[i].1 = k := by
    simpa using (List.mem_filter.mp (List.getElem_mem hi')).2
  have hpre : (l.takeWhile fun e => decide (e.1 ≤ k)) <+: l := List.takeWhile_prefix _
  rw [takeWhile_le_eq k hl] at hpre
  obtain ⟨t, ht⟩ := hpre
  have hat : l[lowerBound l k + i]? = some (l.filter fun e => decide (e.1 = k))[i] := by
    rw [lowerBound, ← List.getElem?_eq_getElem hi', ← List.getElem?_drop]
    have hdrop := congrArg (List.drop (l.takeWhile fun e => decide (e.1 < k)).length) ht
    rw [List.append_assoc, List.drop_left] at hdrop
    rw [← hdrop, List.getElem?_append_left hi']
  rw [hat, Option.some.injEq, Prod.ext_iff]
  exact ⟨hkey, by simp [group]⟩

end Segment

theorem toInt32_inj {a b : ℕ} (ha : a < 2 ^ 32) (hb : b < 2 ^ 32) (h : toInt32 a = toInt32 b) :
    a = b := by
  unfold toInt32 at h
  rw [Nat.mod_eq_of_lt ha, Nat.mod_eq_of_lt hb] at h
  split at h <;> split at h <;> omega

/-! ### The invariant of the containers -/

namespace BatchPolicy

/-- The group of the priority at a position of the list; empty past the end. -/
def groupAt (p : BatchPolicy) (i : ℕ) : List ℕ :=
  (p.priorityList[i]?).elim [] fun x => group p.sources (toInt32 x)

theorem groupAt_of_lt {p : BatchPolicy} {i : ℕ} (h : i < p.priorityList.length) :
    p.groupAt i = group p.sources (toInt32 p.priorityList[i]) := by
  rw [groupAt, List.getElem?_eq_getElem h]
  rfl

theorem lt_length_of_groupAt {p : BatchPolicy} {i : ℕ} (h : 0 < (p.groupAt i).length) :
    i < p.priorityList.length := by
  by_contra hi
  rw [groupAt, List.getElem?_eq_none (not_lt.mp hi)] at h
  exact absurd h (lt_irrefl 0)

/-- The containers that the constructor builds and `checkAndUpdateDefaults`
extends. -/
structure Containers (priorities : List ℕ) (sources : List (ℤ × ℕ)) : Prop where
  priorities_sorted : priorities.Pairwise (· < ·)
  priorities_lt : ∀ x ∈ priorities, x < 2 ^ 32
  sources_sorted : sources.Pairwise fun a b => a.1 ≤ b.1
  sources_nodup : (sources.map Prod.snd).Nodup
  key_mem : ∀ e ∈ sources, ∃ x ∈ priorities, e.1 = toInt32 x
  group_ne_nil : ∀ x ∈ priorities, group sources (toInt32 x) ≠ []

theorem Containers.empty : Containers [] [] where
  priorities_sorted := .nil
  priorities_lt := by simp
  sources_sorted := .nil
  sources_nodup := .nil
  key_mem := by simp
  group_ne_nil := by simp

/-- A new source is entered under its priority in both containers. -/
theorem Containers.insert {priorities : List ℕ} {sources : List (ℤ × ℕ)}
    (h : Containers priorities sources) {x id : ℕ} (hx : x < 2 ^ 32)
    (hid : id ∉ sources.map Prod.snd) :
    Containers (sortedInsert priorities x) (multimapInsert sources (toInt32 x) id) where
  priorities_sorted := pairwise_sortedInsert x h.priorities_sorted
  priorities_lt y hy := by
    rcases mem_sortedInsert.mp hy with rfl | hy
    · exact hx
    · exact h.priorities_lt y hy
  sources_sorted := pairwise_multimapInsert _ _ h.sources_sorted
  sources_nodup := by
    rw [((multimapInsert_perm _ _ _).map Prod.snd).nodup_iff]
    exact List.nodup_cons.mpr ⟨hid, h.sources_nodup⟩
  key_mem e he := by
    rcases List.mem_cons.mp ((multimapInsert_perm _ _ _).mem_iff.mp he) with rfl | he
    · exact ⟨x, mem_sortedInsert.mpr (.inl rfl), rfl⟩
    · obtain ⟨y, hy, hey⟩ := h.key_mem e he
      exact ⟨y, mem_sortedInsert.mpr (.inr hy), hey⟩
  group_ne_nil y hy := by
    rw [ne_eq, ← List.length_eq_zero_iff, length_group_multimapInsert]
    rcases mem_sortedInsert.mp hy with rfl | hy
    · simp
    · have := List.length_pos_iff.mpr (h.group_ne_nil y hy)
      omega

def WellKeyed (p : BatchPolicy) : Prop := Containers p.priorityList p.sources

theorem notMem_of_any_eq_false {sources : List (ℤ × ℕ)} {id : ℕ}
    (h : ¬ (sources.any fun e => decide (e.2 = id)) = true) : id ∉ sources.map Prod.snd := by
  simp only [List.any_eq_true, decide_eq_true_eq, not_exists, not_and] at h
  simp only [List.mem_map, not_exists, not_and]
  exact h

theorem WellKeyed.checkAndUpdateDefaults {p : BatchPolicy} (h : p.WellKeyed) (id : ℕ) :
    (p.checkAndUpdateDefaults id).WellKeyed := by
  unfold BatchPolicy.checkAndUpdateDefaults
  split
  · exact h
  · rename_i hid
    exact Containers.insert h (by decide) (notMem_of_any_eq_false hid)

/-- The first loop of the constructor; the ids still to come are not in the
multimap yet. -/
theorem containers_configured : ∀ (props : List (ℕ × NvStreammuxSourceProps))
    (acc : List ℕ × List (ℤ × ℕ)), Containers acc.1 acc.2 →
    (acc.2.map Prod.snd ++ props.map Prod.fst).Nodup →
    let r := props.foldl (fun (acc : List ℕ × List (ℤ × ℕ)) e =>
      (sortedInsert acc.1 e.2.priority, multimapInsert acc.2 (toInt32 e.2.priority) e.1)) acc
    Containers r.1 r.2
  | [], _, h, _ => h
  | e :: props, acc, h, hnd => by
    have hperm : (acc.2.map Prod.snd ++ (e :: props).map Prod.fst).Perm
        ((multimapInsert acc.2 (toInt32 e.2.priority) e.1).map Prod.snd ++ props.map Prod.fst) := by
      refine List.perm_middle.trans ?_
      exact (((multimapInsert_perm _ _ _).map Prod.snd).append_right _).symm
    have hid : e.1 ∉ acc.2.map Prod.snd := by
      intro hm
      have := List.nodup_append.mp hnd
      exact this.2.2 _ hm _ (by simp) rfl
    exact containers_configured props _ (h.insert e.2.priority_lt hid) (hperm.nodup_iff.mp hnd)

theorem containers_defaults : ∀ (ids : List ℕ) (acc : List ℕ × List (ℤ × ℕ)),
    Containers acc.1 acc.2 →
    let r := ids.foldl (fun (acc : List ℕ × List (ℤ × ℕ)) id =>
      if acc.2.any fun e => e.2 = id then acc
      else (sortedInsert acc.1 defaultSourceGroupPriority,
        multimapInsert acc.2 (toInt32 defaultSourceGroupPriority) id)) acc
    Containers r.1 r.2
  | [], _, h => h
  | id :: ids, acc, h => by
    rw [List.foldl_cons]
    refine containers_defaults ids _ ?_
    split
    · exact h
    · rename_i hid
      exact h.insert (by decide) (notMem_of_any_eq_false hid)

theorem WellKeyed.new (config : BatchPolicyConfig) (ids : List ℕ) :
    (BatchPolicy.new config ids).WellKeyed :=
  containers_defaults ids _ (containers_configured config.sourceProps _ Containers.empty
    (by simpa using config.nodup))

section Groups

variable {p : BatchPolicy} (h : p.WellKeyed)
include h

theorem WellKeyed.groupAt_pos {i : ℕ} (hi : i < p.priorityList.length) :
    0 < (p.groupAt i).length := by
  rw [groupAt_of_lt hi]
  exact List.length_pos_iff.mpr (h.group_ne_nil _ (List.getElem_mem hi))

/-- A source is in one group, and there once. -/
theorem WellKeyed.nodup_flatMap :
    (p.priorityList.flatMap fun x => group p.sources (toInt32 x)).Nodup := by
  rw [List.nodup_flatMap]
  refine ⟨fun x _ => h.sources_nodup.sublist (List.filter_sublist.map _), ?_⟩
  refine h.priorities_sorted.imp_of_mem fun {x y} hx hy hlt => ?_
  rw [Function.onFun, List.disjoint_left]
  intro id hid hid'
  have hkey := List.inj_on_of_nodup_map h.sources_nodup (mem_group.mp hid) (mem_group.mp hid') rfl
  have := toInt32_inj (h.priorities_lt x hx) (h.priorities_lt y hy) (congrArg Prod.fst hkey)
  omega

theorem WellKeyed.mem_flatMap {id : ℕ} :
    id ∈ (p.priorityList.flatMap fun x => group p.sources (toInt32 x)) ↔
      id ∈ p.sources.map Prod.snd := by
  simp only [List.mem_flatMap, mem_group, List.mem_map]
  constructor
  · rintro ⟨x, _, hx⟩
    exact ⟨_, hx, rfl⟩
  · rintro ⟨e, he, rfl⟩
    obtain ⟨x, hx, hkey⟩ := h.key_mem e he
    exact ⟨x, hx, by rw [← hkey]; exact he⟩

end Groups

end BatchPolicy
end Mux
end DeepStream
