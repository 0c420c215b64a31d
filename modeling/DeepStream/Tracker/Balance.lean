/-
# The dynamic sub-batches are equally loaded

`mapStreamToSubBatch` looks for a sub-batch with no stream, then for one with fewer
than two, and so on up to the largest size. The pairs that the loops visit are sorted
by that size, so the first sub-batch with room has the fewest streams of all that are
not full, and there is one as long as not all of them are full. This holds for any
maps, so for those that a run can reach.
-/
import DeepStream.Tracker.Consistent

namespace DeepStream
namespace Tracker

open Std

namespace StreamMaps

/-- The number of streams in a sub-batch. -/
def occupancy (m : StreamMaps) (sbId : SubBatchId) : ℕ := (m.subBatch sbId).size

def Full (cfg : TrackerConfig) (m : StreamMaps) (sbId : SubBatchId) : Prop :=
  cfg.subBatchSizes.getD sbId 0 ≤ m.occupancy sbId

end StreamMaps

open StreamMaps

/-- The stream gets a free slot of a sub-batch that has the fewest streams of those that
are not full, and nothing else changes. -/
structure Assigned (cfg : TrackerConfig) (m m' : StreamMaps) (ssId : SurfaceStreamId) (padIndex : ℕ)
    (sbId : SubBatchId) (seqIdx : SeqIndex) : Prop where
  lt_length : sbId < cfg.subBatchSizes.length
  notFull : ¬ m.Full cfg sbId
  least : ∀ sb < cfg.subBatchSizes.length, ¬ m.Full cfg sb → m.occupancy sbId ≤ m.occupancy sb
  lt : seqIdx < cfg.subBatchSizes.getD sbId 0
  free : m.slot sbId seqIdx = none
  slot : ∀ sb q, m'.slot sb q = if sb = sbId ∧ q = seqIdx then some (ssId, padIndex) else m.slot sb q
  ssids : ∀ s, m'.ssidSubBatchMap[s]? = if s = ssId then some sbId else m.ssidSubBatchMap[s]?
  pads : ∀ p, m'.padIndexSeqIndexMap[p]? = if p = padIndex then some seqIdx else m.padIndexSeqIndexMap[p]?

variable {cfg : TrackerConfig} {m : StreamMaps}

/-! ### What the loops visit -/

/-- The sizes only grow from one pair to the next. -/
theorem visits_sorted (cfg : TrackerConfig) : (visits cfg).Pairwise fun v w => v.1 ≤ w.1 := by
  unfold visits
  rw [List.pairwise_flatMap]
  refine ⟨fun s _ => ?_, ?_⟩
  · rw [List.pairwise_map]
    exact List.pairwise_of_forall fun _ _ => le_rfl
  · refine (List.pairwise_lt_range' ..).imp fun {s t} hst v hv w hw => ?_
    obtain ⟨_, -, rfl⟩ := List.mem_map.mp hv
    obtain ⟨_, -, rfl⟩ := List.mem_map.mp hw
    exact hst.le

theorem lt_length_of_visits {v : ℕ × SubBatchId} (h : v ∈ visits cfg) : v.2 < cfg.subBatchSizes.length := by
  obtain ⟨_, -, hv⟩ := List.mem_flatMap.mp h
  obtain ⟨sb, hsb, rfl⟩ := List.mem_map.mp hv
  exact List.mem_range.mp hsb

theorem lt_length_of_notFull {sbId : SubBatchId} (h : ¬ m.Full cfg sbId) : sbId < cfg.subBatchSizes.length := by
  by_contra hge
  rw [Full, List.getD, List.getElem?_eq_none (Nat.le_of_not_lt hge)] at h
  exact h (Nat.zero_le _)

/-- A sub-batch that is not full is visited with the size it reaches next. -/
theorem mem_visits_of_notFull {sbId : SubBatchId} (h : ¬ m.Full cfg sbId) :
    (m.occupancy sbId + 1, sbId) ∈ visits cfg := by
  have hsb := lt_length_of_notFull h
  have hmax : cfg.subBatchSizes.getD sbId 0 ≤ cfg.maxSubBatchSize := by
    rw [List.getD, List.getElem?_eq_getElem hsb]
    exact le_foldl_max_of_mem (List.getElem_mem hsb)
  unfold Full at h
  rw [visits, List.mem_flatMap]
  refine ⟨m.occupancy sbId + 1, ?_, List.mem_map.mpr ⟨sbId, List.mem_range.mpr hsb, rfl⟩⟩
  rw [List.mem_range'_1]
  omega

/-! ### The sub-batch that is found -/

/-- The slot is one of the first pair that has room. -/
theorem freeSlotIn_least {sbId : SubBatchId} {seqIdx : SeqIndex} : ∀ {vs : List (ℕ × SubBatchId)},
    vs.Pairwise (fun v w => v.1 ≤ w.1) → m.freeSlotIn cfg vs = some (sbId, seqIdx) →
      ∃ s, (s, sbId) ∈ vs ∧ m.HasRoom cfg (s, sbId) ∧ ∀ v ∈ vs, m.HasRoom cfg v → s ≤ v.1
  | [], _, h => by cases h
  | v :: vs, hsorted, h => by
    rw [freeSlotIn] at h
    rw [List.pairwise_cons] at hsorted
    by_cases hroom : m.HasRoom cfg v
    · rw [if_pos hroom] at h
      obtain ⟨q, -, he⟩ := Option.map_eq_some_iff.mp h
      cases he
      refine ⟨v.1, List.mem_cons_self, hroom, fun w hw _ => ?_⟩
      rcases List.mem_cons.mp hw with rfl | hw
      · exact le_rfl
      · exact hsorted.1 w hw
    · rw [if_neg hroom] at h
      obtain ⟨s, hs, hroom', hfirst⟩ := freeSlotIn_least hsorted.2 h
      refine ⟨s, List.mem_cons_of_mem _ hs, hroom', fun w hw hw' => ?_⟩
      rcases List.mem_cons.mp hw with rfl | hw
      · exact absurd hw' hroom
      · exact hfirst w hw hw'

theorem freeSlot_eq_none_iff : m.freeSlot cfg = none ↔ ∀ sb < cfg.subBatchSizes.length, m.Full cfg sb := by
  constructor
  · intro h sb _
    by_contra hfull
    have := freeSlot_isSome (Nat.lt_of_not_le hfull)
    rw [h] at this
    cases this
  · intro h
    by_contra hsome
    obtain ⟨⟨sbId, seqIdx⟩, hslot⟩ := Option.ne_none_iff_exists'.mp hsome
    obtain ⟨s, hs, hroom, -⟩ := freeSlotIn_least (visits_sorted cfg) hslot
    exact absurd (h sbId (lt_length_of_visits hs)) (Nat.not_le.mpr hroom.2)

theorem assigned_of_freeSlot {m' : StreamMaps} {sbId : SubBatchId} {seqIdx : SeqIndex} (hsame : m.Same m')
    (h : m.freeSlot cfg = some (sbId, seqIdx)) (ssId : SurfaceStreamId) (padIndex : ℕ) :
    Assigned cfg m (m'.allocate sbId seqIdx ssId padIndex) ssId padIndex sbId seqIdx := by
  obtain ⟨hlt, hfree⟩ := freeSlotIn_eq_some h
  obtain ⟨s, hs, hroom, hfirst⟩ := freeSlotIn_least (visits_sorted cfg) h
  constructor
  · exact lt_length_of_visits hs
  · exact Nat.not_le.mpr hroom.2
  · -- the pair of `sb` and its next size has room, so the loops came to `sbId` before it
    intro sb _ hsb
    have hle : s ≤ m.occupancy sb + 1 :=
      hfirst _ (mem_visits_of_notFull hsb) ⟨Nat.lt_succ_self _, Nat.lt_of_not_le hsb⟩
    have hlt : m.occupancy sbId < s := hroom.1
    omega
  · exact hlt
  · exact hfree
  · intro sb q
    rw [slot_allocate, hsame.slot]
  · intro s
    rw [allocate, Table.getElem?_insert, hsame.ssids]
  · intro p
    rw [allocate, Table.getElem?_insert, hsame.pads]

/-- **The least loaded sub-batch gets the stream.** In dynamic mode a stream finds no
sub-batch exactly when all of them are full, and then nothing changes. -/
theorem mapStreamToSubBatch_balanced (hdyn : cfg.dynamicSubBatching = true) (m : StreamMaps)
    (ssId : SurfaceStreamId) (padIndex : ℕ) :
    let r := m.mapStreamToSubBatch cfg ssId padIndex
    (r.2 = false ↔ ∀ sb < cfg.subBatchSizes.length, m.Full cfg sb) ∧
      (r.2 = false → m.Same r.1) ∧
      (r.2 = true → ∃ sbId seqIdx, Assigned cfg m r.1 ssId padIndex sbId seqIdx) := by
  have hcase : MapCase m ssId padIndex (m.freeSlot cfg) _ := mapStreamToSubBatch_cases hdyn m ssId padIndex
  generalize m.mapStreamToSubBatch cfg ssId padIndex = r at hcase ⊢
  change (r.2 = false ↔ _) ∧ (r.2 = false → m.Same r.1) ∧ (r.2 = true → _)
  rw [← freeSlot_eq_none_iff]
  cases hslot : m.freeSlot cfg with
  | none =>
    rw [hslot] at hcase
    cases hcase with
    | full hsame => exact ⟨iff_of_true rfl rfl, fun _ => hsame, fun h => by cases h⟩
  | some s =>
    rw [hslot] at hcase
    cases hcase with
    | given hsame =>
      refine ⟨iff_of_false Bool.noConfusion (by simp), Bool.noConfusion, fun _ => ?_⟩
      exact ⟨_, _, assigned_of_freeSlot hsame hslot ssId padIndex⟩

/-- The first stream, with sub-batches for two and for one. -/
theorem mapStreamToSubBatch_balanced_first :
    let r := empty.mapStreamToSubBatch (dynamicConfig [2, 1]) 0 0
    (r.2 = false ↔ ∀ sb < (dynamicConfig [2, 1]).subBatchSizes.length, empty.Full (dynamicConfig [2, 1]) sb) ∧
      (r.2 = false → empty.Same r.1) ∧
      (r.2 = true → ∃ sbId seqIdx, Assigned (dynamicConfig [2, 1]) empty r.1 0 0 sbId seqIdx) :=
  mapStreamToSubBatch_balanced rfl empty 0 0

end Tracker
end DeepStream
