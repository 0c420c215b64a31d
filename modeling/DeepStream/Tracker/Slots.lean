/-
# The slots of the dynamic sub-batches

A slot is a sub-batch with a sequence index. In every state that dynamic mode
can reach, a stream that has a sub-batch owns exactly one slot of it, below the
size of the sub-batch, whatever surfaces were mapped and removed (`Slotted`).
What may go wrong is `padIndexSeqIndexMap`, which knows pads only: it is not
part of this invariant.
-/
import DeepStream.Lib.Run
import DeepStream.Tracker.Streams

namespace DeepStream
namespace Tracker

open Std

namespace StreamMaps

/-- What holds the slot: a stream and its pad. -/
def slot (m : StreamMaps) (sbId : SubBatchId) (seqIdx : SeqIndex) : Option (SurfaceStreamId × ℕ) :=
  (m.subBatch sbId)[seqIdx]?

/-- The same slots and the same entries in the other maps. -/
structure Same (m m' : StreamMaps) : Prop where
  subBatch : ∀ sbId, m'.subBatch sbId = m.subBatch sbId
  ssids : m'.ssidSubBatchMap = m.ssidSubBatchMap
  pads : m'.padIndexSeqIndexMap = m.padIndexSeqIndexMap
  offsets : m'.objectIdOffsetMap = m.objectIdOffsetMap

theorem Same.slot {m m' : StreamMaps} (h : m.Same m') (sbId : SubBatchId) (seqIdx : SeqIndex) :
    m'.slot sbId seqIdx = m.slot sbId seqIdx := by
  rw [StreamMaps.slot, h.subBatch, StreamMaps.slot]

theorem Same.refl (m : StreamMaps) : m.Same m := ⟨fun _ => rfl, rfl, rfl, rfl⟩

theorem Same.trans {m₁ m₂ m₃ : StreamMaps} (h : m₁.Same m₂) (h' : m₂.Same m₃) : m₁.Same m₃ :=
  ⟨fun sbId => (h'.subBatch sbId).trans (h.subBatch sbId), h'.ssids.trans h.ssids, h'.pads.trans h.pads,
    h'.offsets.trans h.offsets⟩

/-- Looking at a sub-batch enters an empty one. -/
theorem same_touch (m : StreamMaps) (sbId : SubBatchId) :
    m.Same { m with subBatchAllocationMap := Table.touch m.subBatchAllocationMap sbId ∅ } :=
  ⟨fun _ => Table.getD_touch _ _ _ _, rfl, rfl, rfl⟩

theorem subBatch_allocate (m : StreamMaps) (sbId : SubBatchId) (seqIdx : SeqIndex)
    (ssId : SurfaceStreamId) (padIndex : ℕ) (sbId' : SubBatchId) :
    (m.allocate sbId seqIdx ssId padIndex).subBatch sbId' =
      if sbId' = sbId then (m.subBatch sbId).insert seqIdx (ssId, padIndex) else m.subBatch sbId' := by
  simp only [subBatch, allocate, TreeMap.getD_insert, LawfulEqOrd.compare_eq_iff_eq]
  exact if_congr eq_comm rfl rfl

theorem slot_allocate (m : StreamMaps) (sbId : SubBatchId) (seqIdx : SeqIndex)
    (ssId : SurfaceStreamId) (padIndex : ℕ) (sbId' : SubBatchId) (seqIdx' : SeqIndex) :
    (m.allocate sbId seqIdx ssId padIndex).slot sbId' seqIdx' =
      if sbId' = sbId ∧ seqIdx' = seqIdx then some (ssId, padIndex) else m.slot sbId' seqIdx' := by
  rw [slot, subBatch_allocate, slot]
  by_cases hsb : sbId' = sbId
  · subst hsb
    simp only [if_pos, Table.getElem?_insert, true_and]
  · rw [if_neg hsb, if_neg fun h => hsb h.1]

/-! ### The free slot -/

theorem freeIndex_eq_some {single : TreeMap SeqIndex (SurfaceStreamId × ℕ)} {size : ℕ} {seqIdx : SeqIndex}
    (h : freeIndex single size = some seqIdx) : seqIdx < size ∧ seqIdx ∉ single :=
  ⟨List.mem_range.mp (List.mem_of_find?_eq_some h), by simpa using List.find?_some h⟩

/-- A sub-batch that is not full has a free index. -/
theorem exists_freeIndex {single : TreeMap SeqIndex (SurfaceStreamId × ℕ)} {size : ℕ}
    (h : single.size < size) : ∃ seqIdx, freeIndex single size = some seqIdx := by
  obtain ⟨k, hk, hfree⟩ := Table.exists_free h
  exact Option.isSome_iff_exists.mp
    (List.find?_isSome.mpr ⟨k, List.mem_range.mpr hk, by simpa using hfree⟩)

/-- The sub-batch has fewer streams than `sbSizeCnt` and than its size. -/
def HasRoom (cfg : TrackerConfig) (m : StreamMaps) (v : ℕ × SubBatchId) : Prop :=
  (m.subBatch v.2).size < v.1 ∧ (m.subBatch v.2).size < cfg.subBatchSizes.getD v.2 0

instance (cfg : TrackerConfig) (m : StreamMaps) (v : ℕ × SubBatchId) : Decidable (m.HasRoom cfg v) :=
  inferInstanceAs (Decidable (_ ∧ _))

def freeSlotIn (cfg : TrackerConfig) (m : StreamMaps) :
    List (ℕ × SubBatchId) → Option (SubBatchId × SeqIndex)
  | [] => none
  | v :: vs =>
    if m.HasRoom cfg v then
      (freeIndex (m.subBatch v.2) (cfg.subBatchSizes.getD v.2 0)).map fun seqIdx => (v.2, seqIdx)
    else freeSlotIn cfg m vs

/-- The slot for the next stream: the first free index of the first of the least
loaded sub-batches. -/
def freeSlot (cfg : TrackerConfig) (m : StreamMaps) : Option (SubBatchId × SeqIndex) :=
  m.freeSlotIn cfg (visits cfg)

theorem freeSlotIn_eq_some {cfg : TrackerConfig} {m : StreamMaps} {sbId : SubBatchId} {seqIdx : SeqIndex} :
    ∀ {vs}, m.freeSlotIn cfg vs = some (sbId, seqIdx) →
      seqIdx < cfg.subBatchSizes.getD sbId 0 ∧ m.slot sbId seqIdx = none
  | [], h => by cases h
  | v :: vs, h => by
    rw [freeSlotIn] at h
    split at h
    · obtain ⟨q, hq, he⟩ := Option.map_eq_some_iff.mp h
      cases he
      obtain ⟨hlt, hfree⟩ := freeIndex_eq_some hq
      exact ⟨hlt, TreeMap.getElem?_eq_none hfree⟩
    · exact freeSlotIn_eq_some h

/-- There is a free slot as soon as one of the pairs visited has room. -/
theorem freeSlotIn_isSome {cfg : TrackerConfig} {m : StreamMaps} {v : ℕ × SubBatchId}
    (hroom : m.HasRoom cfg v) : ∀ {vs}, v ∈ vs → (m.freeSlotIn cfg vs).isSome
  | w :: vs, hv => by
    rw [freeSlotIn]
    split
    · rename_i hw
      obtain ⟨q, hq⟩ := exists_freeIndex hw.2
      rw [hq]
      rfl
    · rename_i hw
      rcases List.mem_cons.mp hv with rfl | hv
      · exact absurd hroom hw
      · exact freeSlotIn_isSome hroom hv

theorem le_foldl_max : ∀ (l : List ℕ) (init : ℕ), init ≤ l.foldl max init
  | [], _ => le_rfl
  | _ :: l, _ => (le_max_left _ _).trans (le_foldl_max l _)

theorem le_foldl_max_of_mem {a : ℕ} : ∀ {l : List ℕ} {init : ℕ}, a ∈ l → a ≤ l.foldl max init
  | b :: l, init, h => by
    rw [List.foldl_cons]
    rcases List.mem_cons.mp h with rfl | h
    · exact (le_max_right _ _).trans (le_foldl_max l _)
    · exact le_foldl_max_of_mem h

/-- A sub-batch that is not full is found by the two loops. -/
theorem freeSlot_isSome {cfg : TrackerConfig} {m : StreamMaps} {sbId : SubBatchId}
    (h : (m.subBatch sbId).size < cfg.subBatchSizes.getD sbId 0) : (m.freeSlot cfg).isSome := by
  have hsb : sbId < cfg.subBatchSizes.length := by
    by_contra hge
    simp [List.getD, List.getElem?_eq_none (Nat.le_of_not_lt hge)] at h
  have hmax : cfg.subBatchSizes.getD sbId 0 ≤ cfg.maxSubBatchSize := by
    rw [List.getD, List.getElem?_eq_getElem hsb]
    exact le_foldl_max_of_mem (List.getElem_mem hsb)
  refine freeSlotIn_isSome (v := ((m.subBatch sbId).size + 1, sbId)) ⟨Nat.lt_succ_self _, h⟩ ?_
  rw [visits, List.mem_flatMap]
  refine ⟨(m.subBatch sbId).size + 1, ?_, List.mem_map.mpr ⟨sbId, List.mem_range.mpr hsb, rfl⟩⟩
  rw [List.mem_range'_1]
  omega

/-! ### Mapping a stream -/

/-- What the dynamic `mapStreamToSubBatch` does. -/
inductive MapCase (m : StreamMaps) (ssId : SurfaceStreamId) (padIndex : ℕ) :
    Option (SubBatchId × SeqIndex) → StreamMaps × Bool → Prop
  | full {m' : StreamMaps} (same : m.Same m') : MapCase m ssId padIndex none (m', false)
  | given {m' : StreamMaps} {sbId : SubBatchId} {seqIdx : SeqIndex} (same : m.Same m') :
      MapCase m ssId padIndex (some (sbId, seqIdx)) (m'.allocate sbId seqIdx ssId padIndex, true)

theorem mapDynamic_cases (cfg : TrackerConfig) (ssId : SurfaceStreamId) (padIndex : ℕ) {m₀ : StreamMaps} :
    ∀ (vs : List (ℕ × SubBatchId)) (m : StreamMaps), m₀.Same m →
      MapCase m₀ ssId padIndex (m₀.freeSlotIn cfg vs) (mapDynamic cfg ssId padIndex vs m)
  | [], _, h => .full h
  | (sbSizeCnt, sbId) :: vs, m, h => by
    have h' := h.trans (m.same_touch sbId)
    rw [mapDynamic, freeSlotIn, ← h'.subBatch]
    by_cases hroom : m₀.HasRoom cfg (sbSizeCnt, sbId)
    · obtain ⟨q, hq⟩ := exists_freeIndex hroom.2
      rw [if_pos hroom, if_pos (by rw [h'.subBatch]; exact hroom), h'.subBatch, hq]
      exact .given h'
    · rw [if_neg hroom, if_neg (by rw [h'.subBatch]; exact hroom)]
      exact mapDynamic_cases cfg ssId padIndex vs _ h'

theorem mapStreamToSubBatch_cases {cfg : TrackerConfig} (hdyn : cfg.dynamicSubBatching = true)
    (m : StreamMaps) (ssId : SurfaceStreamId) (padIndex : ℕ) :
    MapCase m ssId padIndex (m.freeSlot cfg) (m.mapStreamToSubBatch cfg ssId padIndex) := by
  rw [mapStreamToSubBatch, if_pos hdyn]
  exact mapDynamic_cases cfg ssId padIndex _ m (Same.refl m)

end StreamMaps

/-! ### The invariant of the slots -/

/-- Every stream that has a sub-batch owns exactly one slot, of that sub-batch
and below its size, and every slot in use is owned. -/
structure Slotted (cfg : TrackerConfig) (m : StreamMaps) : Prop where
  pad : ∀ {sbId seqIdx ssId padIndex}, m.slot sbId seqIdx = some (ssId, padIndex) →
    padIndex = getStreamId ssId
  mapped : ∀ {sbId seqIdx ssId padIndex}, m.slot sbId seqIdx = some (ssId, padIndex) →
    m.ssidSubBatchMap[ssId]? = some sbId
  unique : ∀ {sbId seqIdx seqIdx' ssId padIndex padIndex'}, m.slot sbId seqIdx = some (ssId, padIndex) →
    m.slot sbId seqIdx' = some (ssId, padIndex') → seqIdx = seqIdx'
  owns : ∀ {ssId sbId}, m.ssidSubBatchMap[ssId]? = some sbId →
    ∃ seqIdx, m.slot sbId seqIdx = some (ssId, getStreamId ssId)
  lt : ∀ {sbId seqIdx e}, m.slot sbId seqIdx = some e → seqIdx < cfg.subBatchSizes.getD sbId 0

namespace Slotted

variable {cfg : TrackerConfig} {m m' : StreamMaps}

theorem subBatch_lt (h : Slotted cfg m) {sbId : SubBatchId} {seqIdx : SeqIndex} {e : SurfaceStreamId × ℕ}
    (hs : m.slot sbId seqIdx = some e) : sbId < cfg.subBatchSizes.length := by
  have hlt := h.lt hs
  by_contra hge
  simp [List.getD, List.getElem?_eq_none (Nat.le_of_not_lt hge)] at hlt

/-- Only the slots and the sub-batches of the streams matter. -/
theorem of_eq (h : Slotted cfg m) (hslot : ∀ sbId seqIdx, m'.slot sbId seqIdx = m.slot sbId seqIdx)
    (hssids : m'.ssidSubBatchMap = m.ssidSubBatchMap) : Slotted cfg m' where
  pad := by
    intro sbId seqIdx ssId padIndex hq
    exact h.pad (hslot sbId seqIdx ▸ hq)
  mapped := by
    intro sbId seqIdx ssId padIndex hq
    rw [hssids]
    exact h.mapped (hslot sbId seqIdx ▸ hq)
  unique := by
    intro sbId seqIdx seqIdx' ssId padIndex padIndex' hq hq'
    exact h.unique (hslot sbId seqIdx ▸ hq) (hslot sbId seqIdx' ▸ hq')
  owns := by
    intro ssId sbId hm
    obtain ⟨q, hq⟩ := h.owns (hssids ▸ hm)
    exact ⟨q, (hslot sbId q).trans hq⟩
  lt := by
    intro sbId seqIdx e hq
    exact h.lt (hslot sbId seqIdx ▸ hq)

theorem same (h : Slotted cfg m) (hs : m.Same m') : Slotted cfg m' := h.of_eq hs.slot hs.ssids

/-- A free slot is given to a stream that has none. -/
theorem allocate (h : Slotted cfg m) {sbId : SubBatchId} {seqIdx : SeqIndex} {ssId : SurfaceStreamId}
    (hnew : ssId ∉ m.ssidSubBatchMap) (hlt : seqIdx < cfg.subBatchSizes.getD sbId 0)
    (hfree : m.slot sbId seqIdx = none) :
    Slotted cfg (m.allocate sbId seqIdx ssId (getStreamId ssId)) := by
  have hnone : ∀ sb q p, m.slot sb q ≠ some (ssId, p) := fun sb q p hq =>
    hnew (TreeMap.mem_iff_isSome_getElem?.mpr (by rw [h.mapped hq]; rfl))
  have hssid : ∀ s, (m.allocate sbId seqIdx ssId (getStreamId ssId)).ssidSubBatchMap[s]? =
      if s = ssId then some sbId else m.ssidSubBatchMap[s]? := fun s => Table.getElem?_insert _ _ _ _
  constructor
  · intro sb q s p hq
    rw [StreamMaps.slot_allocate] at hq
    split at hq
    · cases hq
      rfl
    · exact h.pad hq
  · intro sb q s p hq
    rw [StreamMaps.slot_allocate] at hq
    rw [hssid]
    split at hq
    · rename_i he
      cases hq
      rw [if_pos rfl, he.1]
    · rw [if_neg, h.mapped hq]
      rintro rfl
      exact hnone sb q p hq
  · intro sb q q' s p p' hq hq'
    rw [StreamMaps.slot_allocate] at hq hq'
    split at hq <;> split at hq'
    · rename_i he he'
      exact he.2.trans he'.2.symm
    · cases hq
      exact absurd hq' (hnone _ _ _)
    · cases hq'
      exact absurd hq (hnone _ _ _)
    · exact h.unique hq hq'
  · intro s sb hm
    rw [hssid] at hm
    split at hm
    · rename_i he
      cases hm
      exact ⟨seqIdx, by rw [StreamMaps.slot_allocate, if_pos ⟨rfl, rfl⟩, he]⟩
    · obtain ⟨q, hq⟩ := h.owns hm
      refine ⟨q, ?_⟩
      rw [StreamMaps.slot_allocate, if_neg, hq]
      rintro ⟨rfl, rfl⟩
      rw [hfree] at hq
      cases hq
  · intro sb q e hq
    rw [StreamMaps.slot_allocate] at hq
    split at hq
    · rename_i he
      rw [he.1, he.2]
      exact hlt
    · exact h.lt hq

end Slotted

/-! ### Removing a stream -/

/-- The slot of a stream and its entry in `ssidSubBatchMap` are gone. -/
structure Released (m m' : StreamMaps) (ssId : SurfaceStreamId) (sbId : SubBatchId)
    (seqIdx : SeqIndex) : Prop where
  slot : ∀ sbId' seqIdx', m'.slot sbId' seqIdx' =
    if sbId' = sbId ∧ seqIdx' = seqIdx then none else m.slot sbId' seqIdx'
  ssids : ∀ s, m'.ssidSubBatchMap[s]? = if s = ssId then none else m.ssidSubBatchMap[s]?
  offsets : m'.objectIdOffsetMap = m.objectIdOffsetMap

theorem Slotted.released {cfg : TrackerConfig} {m m' : StreamMaps} {ssId : SurfaceStreamId}
    {sbId : SubBatchId} {seqIdx : SeqIndex} (h : Slotted cfg m)
    (hs : m.slot sbId seqIdx = some (ssId, getStreamId ssId)) (hr : Released m m' ssId sbId seqIdx) :
    Slotted cfg m' := by
  have hsome : ∀ {sb q e}, m'.slot sb q = some e → ¬(sb = sbId ∧ q = seqIdx) ∧ m.slot sb q = some e := by
    intro sb q e hq
    rw [hr.slot] at hq
    split at hq
    · cases hq
    · exact ⟨‹_›, hq⟩
  constructor
  · intro sb q s p hq
    exact h.pad (hsome hq).2
  · intro sb q s p hq
    obtain ⟨hne, hq⟩ := hsome hq
    rw [hr.ssids, if_neg, h.mapped hq]
    rintro rfl
    have hsb : sb = sbId := Option.some.inj ((h.mapped hq).symm.trans (h.mapped hs))
    subst hsb
    exact hne ⟨rfl, h.unique hq hs⟩
  · intro sb q q' s p p' hq hq'
    exact h.unique (hsome hq).2 (hsome hq').2
  · intro s sb hm
    rw [hr.ssids] at hm
    split at hm
    · cases hm
    · rename_i hne
      obtain ⟨q, hq⟩ := h.owns hm
      refine ⟨q, ?_⟩
      rw [hr.slot, if_neg, hq]
      rintro ⟨rfl, rfl⟩
      rw [hs] at hq
      cases hq
      exact hne rfl
  · intro sb q e hq
    exact h.lt (hsome hq).2

namespace StreamMaps

/-- What `removeSource` does with a stream: it finds no sub-batch, it frees the
slot but finds another index for the pad, or it frees both. -/
inductive RemoveCase (m : StreamMaps) (ssId : SurfaceStreamId) : StreamMaps × Option SubBatchId → Prop
  | unmapped (h : m.ssidSubBatchMap[ssId]? = none) : RemoveCase m ssId (m, none)
  | mismatch {m' : StreamMaps} {sbId : SubBatchId} {seqIdx : SeqIndex}
      (hs : m.slot sbId seqIdx = some (ssId, getStreamId ssId))
      (hne : seqIdx ≠ m.seqIndex (getStreamId ssId)) (released : Released m m' ssId sbId seqIdx)
      (pads : m'.padIndexSeqIndexMap = Table.touch m.padIndexSeqIndexMap (getStreamId ssId) 0) :
      RemoveCase m ssId (m', none)
  | freed {m' : StreamMaps} {sbId : SubBatchId}
      (hs : m.slot sbId (m.seqIndex (getStreamId ssId)) = some (ssId, getStreamId ssId))
      (released : Released m m' ssId sbId (m.seqIndex (getStreamId ssId)))
      (pads : m'.padIndexSeqIndexMap =
        (Table.touch m.padIndexSeqIndexMap (getStreamId ssId) 0).erase (getStreamId ssId)) :
      RemoveCase m ssId (m', some sbId)

/-- The slots without one of them. -/
theorem slot_erase (m : StreamMaps) {sbId : SubBatchId} {seqIdx : SeqIndex}
    {single : TreeMap SeqIndex (SurfaceStreamId × ℕ)} (hsb : m.subBatchAllocationMap[sbId]? = some single)
    (sbId' : SubBatchId) (seqIdx' : SeqIndex) :
    (({ m with subBatchAllocationMap := if (single.erase seqIdx).size = 0
        then m.subBatchAllocationMap.erase sbId
        else m.subBatchAllocationMap.insert sbId (single.erase seqIdx) } : StreamMaps)).slot sbId' seqIdx' =
      if sbId' = sbId ∧ seqIdx' = seqIdx then none else m.slot sbId' seqIdx' := by
  have hsub : m.subBatch sbId = single := by
    rw [subBatch, TreeMap.getD_eq_getD_getElem?, hsb]
    rfl
  have halloc : (if (single.erase seqIdx).size = 0 then m.subBatchAllocationMap.erase sbId
      else m.subBatchAllocationMap.insert sbId (single.erase seqIdx)).getD sbId' ∅ =
        if sbId' = sbId then if (single.erase seqIdx).size = 0 then ∅ else single.erase seqIdx
        else m.subBatch sbId' := by
    rw [subBatch]
    split <;> simp only [TreeMap.getD_eq_getD_getElem?, Table.getElem?_erase, Table.getElem?_insert] <;>
      split <;> rfl
  rw [slot, subBatch, halloc, slot]
  by_cases hne : sbId' = sbId
  · subst hne
    rw [if_pos rfl, hsub]
    simp only [true_and, ← Table.getElem?_erase]
    split
    · rename_i hempty
      rw [TreeMap.getElem?_eq_none (Table.notMem_of_size_eq_zero hempty _)]
      rfl
    · rfl
  · rw [if_neg hne, if_neg fun h => hne h.1]

theorem removeStream_cases {cfg : TrackerConfig} {m : StreamMaps} (h : Slotted cfg m)
    (ssId : SurfaceStreamId) : RemoveCase m ssId (m.removeStream cfg ssId) := by
  unfold removeStream
  split
  · rename_i hm
    exact .unmapped hm
  · rename_i sbId hm
    obtain ⟨q, hq⟩ := h.owns hm
    have hlt := h.subBatch_lt hq
    obtain ⟨single, hsb⟩ : ∃ single, m.subBatchAllocationMap[sbId]? = some single := by
      cases hs : m.subBatchAllocationMap[sbId]? with
      | some single => exact ⟨single, rfl⟩
      | none =>
        rw [slot, subBatch, TreeMap.getD_eq_getD_getElem?, hs] at hq
        simp at hq
    have hsub : ∀ q, m.slot sbId q = single[q]? := fun q => by
      rw [slot, subBatch, TreeMap.getD_eq_getD_getElem?, hsb]
      rfl
    have hfind : single.toList.find? (fun e => e.2.1 = ssId) = some (q, ssId, getStreamId ssId) := by
      refine Table.find?_toList ((hsub q).symm.trans hq) (by simp) fun q' e he hp => ?_
      have hp : e.1 = ssId := by simpa using hp
      exact h.unique ((hsub q').trans (he.trans (by rw [← hp]))) hq
    have hseq : (Table.touch m.padIndexSeqIndexMap (getStreamId ssId) 0).getD (getStreamId ssId) 0 =
        m.seqIndex (getStreamId ssId) := Table.getD_touch _ _ _ _
    simp only [releaseSlot, hsb, hfind, hseq]
    have hslot := @slot_erase m _ q _ hsb
    have hssid := Table.getElem?_erase m.ssidSubBatchMap ssId
    by_cases heq : q = m.seqIndex (getStreamId ssId)
    · subst heq
      simp only [ne_eq, not_true_eq_false, if_false, hlt, and_self, if_true]
      exact .freed hq ⟨hslot, hssid, rfl⟩ rfl
    · simp only [ne_eq, heq, not_false_eq_true, if_true, Bool.false_eq_true, false_and, if_false]
      exact .mismatch hq heq ⟨hslot, hssid, rfl⟩ rfl

/-- What each removal of a stream keeps, the loop of `removeSource` keeps. -/
theorem removeStreams_invariant {cfg : TrackerConfig} {I : StreamMaps → Prop} :
    ∀ (ssIds : List SurfaceStreamId), (∀ m, ∀ ssId ∈ ssIds, I m → I (m.removeStream cfg ssId).1) →
      ∀ m : StreamMaps, I m → I (m.removeStreams cfg ssIds).maps
  | [], _, _, h => h
  | ssId :: ssIds, hstep, m, h => by
    have h' := hstep m ssId (List.mem_cons_self ..) h
    rw [removeStreams]
    split
    · rename_i he
      rw [he] at h'
      exact h'
    · rename_i he
      rw [he] at h'
      exact removeStreams_invariant ssIds (fun m s hs => hstep m s (List.mem_cons_of_mem _ hs)) _ h'

end StreamMaps

/-! ### The system of the maps -/

/-- One operation on the maps: a frame of a stream is dispatched, it is filled
in for the low-level library, an object of a stream is tracked, or a source is
removed. -/
inductive StreamOp where
  | dispatchFrame (frame : NvDsFrameMeta)
  | fillMOTFrame (frame : NvDsFrameMeta)
  | objectIdMapping (objectId : ℕ) (ssId : SurfaceStreamId)
  | removeSource (sourceId : StreamId) (removeObjectIdMapping : Bool)

namespace StreamMaps

variable {cfg : TrackerConfig} {m : StreamMaps}

def apply (cfg : TrackerConfig) (m : StreamMaps) : StreamOp → StreamMaps
  | .dispatchFrame frame => (m.mapFrame cfg frame.ssId frame.padIndex.toNat).1
  | .fillMOTFrame frame => (m.fillMOTFrame frame.ssId frame).1
  | .objectIdMapping objectId ssId => m.objectIdMapping objectId ssId
  | .removeSource sourceId flag => (m.removeSource cfg sourceId flag).maps

def step (cfg : TrackerConfig) (m : StreamMaps) (op : StreamOp) : Option StreamMaps := some (m.apply cfg op)

/-- The start of a run. -/
def Started (cfg : TrackerConfig) (m : StreamMaps) : Prop := init cfg = some m

/-- Dynamic sub-batches are configured. -/
structure Dynamic (cfg : TrackerConfig) : Prop where
  sizes : cfg.subBatchSizes.length ≠ 0
  dynamic : cfg.dynamicSubBatching = true

theorem Started.eq (hd : Dynamic cfg) (h : Started cfg m) : m = empty := by
  simp only [Started, init, hd.sizes, hd.dynamic, if_false, if_true, Option.some.injEq] at h
  exact h.symm

theorem started_empty (hd : Dynamic cfg) : Started cfg empty := by
  simp only [Started, init, hd.sizes, hd.dynamic, if_false, if_true]

theorem slot_empty (sbId : SubBatchId) (seqIdx : SeqIndex) :
    empty.slot sbId seqIdx = none := by
  simp [slot, subBatch, empty]

/-- `removeSource` with sub-batches, as far as slots and sub-batches go. -/
theorem removeSource_eq (hsub : cfg.subBatchSizes.length ≠ 0) (sourceId : StreamId) (flag : Bool) :
    m.removeSource cfg sourceId flag =
      if (m.removeStreams cfg (m.offsetStreams sourceId)).ok ∧ flag then
        { m.removeStreams cfg (m.offsetStreams sourceId) with
          maps := (m.removeStreams cfg (m.offsetStreams sourceId)).maps.eraseOffsets sourceId }
      else m.removeStreams cfg (m.offsetStreams sourceId) := by
  simp only [removeSource, hsub, if_false]

end StreamMaps

open StreamMaps

theorem slotted_init {cfg : TrackerConfig} : Slotted cfg empty where
  pad := by
    intro sbId seqIdx ssId padIndex h
    simp [slot_empty] at h
  mapped := by
    intro sbId seqIdx ssId padIndex h
    simp [slot_empty] at h
  unique := by
    intro sbId seqIdx seqIdx' ssId padIndex padIndex' h
    simp [slot_empty] at h
  owns := by
    intro ssId sbId h
    simp [empty] at h
  lt := by
    intro sbId seqIdx e h
    simp [slot_empty] at h

namespace Slotted

variable {cfg : TrackerConfig} {m m' : StreamMaps}

theorem removeStream (h : Slotted cfg m) (ssId : SurfaceStreamId) :
    Slotted cfg (m.removeStream cfg ssId).1 := by
  have hcase := removeStream_cases h ssId
  generalize m.removeStream cfg ssId = r at hcase ⊢
  cases hcase with
  | unmapped _ => exact h
  | mismatch hs _ hr _ => exact h.released hs hr
  | freed hs hr _ => exact h.released hs hr

theorem mapFrame (hd : cfg.dynamicSubBatching = true) (h : Slotted cfg m) (frame : NvDsFrameMeta) :
    Slotted cfg (m.mapFrame cfg frame.ssId frame.padIndex.toNat).1 := by
  unfold StreamMaps.mapFrame
  split
  · exact h
  · rename_i hnew
    have hcase := mapStreamToSubBatch_cases hd m frame.ssId frame.padIndex.toNat
    generalize m.mapStreamToSubBatch cfg frame.ssId frame.padIndex.toNat = r at hcase ⊢
    generalize hfree : m.freeSlot cfg = free at hcase
    cases hcase with
    | full hs => exact h.same hs
    | given hs =>
      obtain ⟨hlt, hnone⟩ := freeSlotIn_eq_some hfree
      rw [← getStreamId_ssId]
      exact (h.same hs).allocate (hs.ssids ▸ hnew) hlt ((hs.slot _ _).trans hnone)

/-- Every operation of dynamic mode keeps the slots in order. -/
theorem apply (hd : Dynamic cfg) (h : Slotted cfg m) (op : StreamOp) : Slotted cfg (m.apply cfg op) := by
  cases op with
  | dispatchFrame frame => exact h.mapFrame hd.dynamic frame
  | fillMOTFrame frame => exact h.of_eq (fun _ _ => rfl) rfl
  | objectIdMapping objectId ssId => exact h.of_eq (fun _ _ => rfl) rfl
  | removeSource sourceId flag =>
    have hloop := @removeStreams_invariant cfg (Slotted cfg) (m.offsetStreams sourceId)
      (fun m ssId _ h => h.removeStream ssId) m h
    rw [StreamMaps.apply, removeSource_eq hd.sizes]
    split
    · exact hloop.of_eq (fun _ _ => rfl) rfl
    · exact hloop

theorem of_reach (hd : Dynamic cfg) {ok : StreamMaps → StreamOp → Prop}
    (h : Reach (StreamMaps.step cfg) ok (Started cfg) m) : Slotted cfg m :=
  h.invariant (fun m h0 => by rw [h0.eq hd]; exact slotted_init)
    fun m op m' hI _ hs => by
      cases hs
      exact hI.apply hd op

end Slotted
end Tracker
end DeepStream
