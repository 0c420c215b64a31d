/-
# When the maps of the dynamic sub-batches agree

The slot of a stream is kept under its surface stream id, the sequence index
that its frames use under its pad. The two agree as long as the streams of one
pad hold the same index: a second surface of a pad that gets another index
overwrites the entry of the first, and a removal that frees one of them erases
the entry of all. The condition on each step is exact.
-/
import DeepStream.Tracker.Slots
import Mathlib.Algebra.GroupWithZero.Nat

namespace DeepStream
namespace Tracker

open Std StreamMaps

/-- The three maps say the same: a slot holds a stream exactly when the stream
has that sub-batch and its frames use that sequence index; a stream that has a
sub-batch owns one slot; no slot is used for two streams; every index is below
the size of its sub-batch. -/
structure Consistent (cfg : TrackerConfig) (m : StreamMaps) : Prop where
  slot_iff : ∀ sbId seqIdx ssId, m.slot sbId seqIdx = some (ssId, getStreamId ssId) ↔
    m.ssidSubBatchMap[ssId]? = some sbId ∧ m.seqIndex (getStreamId ssId) = seqIdx
  pad : ∀ sbId seqIdx ssId padIndex, m.slot sbId seqIdx = some (ssId, padIndex) →
    padIndex = getStreamId ssId
  owns : ∀ ssId ∈ m.ssidSubBatchMap,
    ∃! s : SubBatchId × SeqIndex, (m.slot s.1 s.2).map Prod.fst = some ssId
  once : ∀ ssId ssId' sbId, m.ssidSubBatchMap[ssId]? = some sbId → m.ssidSubBatchMap[ssId']? = some sbId →
    m.seqIndex (getStreamId ssId) = m.seqIndex (getStreamId ssId') → ssId = ssId'
  lt : ∀ sbId seqIdx e, m.slot sbId seqIdx = some e → seqIdx < cfg.subBatchSizes.getD sbId 0

/-- The entry of a pad names the index of each slot that the pad has. -/
def Agree (m : StreamMaps) : Prop :=
  ∀ sbId seqIdx ssId padIndex, m.slot sbId seqIdx = some (ssId, padIndex) → seqIdx = m.seqIndex padIndex

namespace StreamMaps

/-- The streams of a pad that have a sub-batch. -/
def streamsOf (m : StreamMaps) (padIndex : ℕ) : List SurfaceStreamId :=
  m.ssidSubBatchMap.keys.filter fun ssId => getStreamId ssId = padIndex

/-- The slot of the stream has this index. -/
def Holds (m : StreamMaps) (ssId : SurfaceStreamId) (seqIdx : SeqIndex) : Prop :=
  (m.slot (m.ssidSubBatchMap.getD ssId 0) seqIdx).map Prod.fst = some ssId

instance (m : StreamMaps) (ssId : SurfaceStreamId) (seqIdx : SeqIndex) : Decidable (m.Holds ssId seqIdx) :=
  inferInstanceAs (Decidable (_ = _))

theorem mem_streamsOf {m : StreamMaps} {padIndex : ℕ} {ssId : SurfaceStreamId} :
    ssId ∈ m.streamsOf padIndex ↔ ssId ∈ m.ssidSubBatchMap ∧ getStreamId ssId = padIndex := by
  simp [streamsOf]

theorem mem_offsetStreams {m : StreamMaps} {padIndex : ℕ} {ssId : SurfaceStreamId} :
    ssId ∈ m.offsetStreams padIndex ↔ ssId ∈ m.objectIdOffsetMap ∧ getStreamId ssId = padIndex := by
  simp [offsetStreams]

theorem nodup_offsetStreams (m : StreamMaps) (padIndex : ℕ) : (m.offsetStreams padIndex).Nodup :=
  (m.objectIdOffsetMap.nodup_keys).filter _

end StreamMaps

namespace Slotted

variable {cfg : TrackerConfig} {m m' : StreamMaps}

theorem holds_iff (h : Slotted cfg m) {ssId : SurfaceStreamId} {seqIdx : SeqIndex} :
    m.Holds ssId seqIdx ↔ ∃ sbId, m.slot sbId seqIdx = some (ssId, getStreamId ssId) := by
  constructor
  · intro hh
    obtain ⟨⟨s, p⟩, he, rfl⟩ := Option.map_eq_some_iff.mp hh
    exact ⟨_, by rw [he, h.pad he]⟩
  · rintro ⟨sbId, hs⟩
    rw [Holds, TreeMap.getD_eq_getD_getElem?, h.mapped hs, Option.getD_some, hs]
    rfl

theorem mem_of_slot (h : Slotted cfg m) {ssId : SurfaceStreamId} {sbId : SubBatchId} {seqIdx : SeqIndex}
    {padIndex : ℕ} (hs : m.slot sbId seqIdx = some (ssId, padIndex)) : ssId ∈ m.ssidSubBatchMap :=
  TreeMap.mem_iff_isSome_getElem?.mpr (by rw [h.mapped hs]; rfl)

theorem slot_of_mem (h : Slotted cfg m) {ssId : SurfaceStreamId} (hs : ssId ∈ m.ssidSubBatchMap) :
    ∃ sbId seqIdx, m.slot sbId seqIdx = some (ssId, getStreamId ssId) := by
  obtain ⟨sbId, hsb⟩ := Option.isSome_iff_exists.mp (TreeMap.mem_iff_isSome_getElem?.mp hs)
  exact ⟨sbId, h.owns hsb⟩

/-- The maps agree as soon as the entries of the pads do. -/
theorem consistent_iff (h : Slotted cfg m) : Consistent cfg m ↔ Agree m := by
  constructor
  · intro hc sbId seqIdx ssId padIndex hs
    have hp := h.pad hs
    subst hp
    exact ((hc.slot_iff _ _ _).mp hs).2.symm
  · intro ha
    have hslot : ∀ {ssId sbId}, m.ssidSubBatchMap[ssId]? = some sbId →
        m.slot sbId (m.seqIndex (getStreamId ssId)) = some (ssId, getStreamId ssId) := by
      intro ssId sbId hm
      obtain ⟨q, hq⟩ := h.owns hm
      rwa [← ha _ _ _ _ hq]
    refine ⟨fun sbId seqIdx ssId => ⟨fun hs => ⟨h.mapped hs, (ha _ _ _ _ hs).symm⟩, ?_⟩,
      fun _ _ _ _ hs => h.pad hs, fun ssId hmem => ?_, fun ssId ssId' sbId hs hs' he => ?_,
      fun _ _ _ hs => h.lt hs⟩
    · rintro ⟨hm, rfl⟩
      exact hslot hm
    · obtain ⟨sbId, seqIdx, hs⟩ := h.slot_of_mem hmem
      refine ⟨(sbId, seqIdx), by simp [hs], ?_⟩
      rintro ⟨sb, q⟩ hq
      obtain ⟨⟨s, p⟩, hq', rfl⟩ := Option.map_eq_some_iff.mp hq
      dsimp only at hq' hs
      clear hq
      rename' hq' => hq
      have hsb : sb = sbId := Option.some.inj ((h.mapped hq).symm.trans (h.mapped hs))
      subst hsb
      rw [h.unique hq hs]
    · have := (hslot hs).symm.trans (he ▸ hslot hs')
      simp only [Option.some.injEq, Prod.mk.injEq] at this
      exact this.1

end Slotted

/-! ### Mapping a stream -/

section Step

variable {cfg : TrackerConfig} {m m' : StreamMaps}

theorem seqIndex_allocate (m : StreamMaps) (sbId : SubBatchId) (seqIdx : SeqIndex) (ssId : SurfaceStreamId)
    (padIndex padIndex' : ℕ) : (m.allocate sbId seqIdx ssId padIndex).seqIndex padIndex' =
      if padIndex' = padIndex then seqIdx else m.seqIndex padIndex' := by
  rw [seqIndex, StreamMaps.allocate, TreeMap.getD_eq_getD_getElem?, Table.getElem?_insert, seqIndex,
    TreeMap.getD_eq_getD_getElem?]
  split <;> rfl

/-- A new slot agrees when the pad has no other index. -/
theorem agree_allocate_iff (h : Agree m) {sbId : SubBatchId} {seqIdx : SeqIndex} {ssId : SurfaceStreamId}
    {padIndex : ℕ} (hfree : m.slot sbId seqIdx = none) :
    Agree (m.allocate sbId seqIdx ssId padIndex) ↔
      ∀ sb q s, m.slot sb q = some (s, padIndex) → q = seqIdx := by
  constructor
  · intro ha sb q s hs
    have hne : ¬(sb = sbId ∧ q = seqIdx) := by
      rintro ⟨rfl, rfl⟩
      rw [hfree] at hs
      cases hs
    have := ha sb q s padIndex (by rw [slot_allocate, if_neg hne, hs])
    rwa [seqIndex_allocate, if_pos rfl] at this
  · intro hpad sb q s p hs
    rw [slot_allocate] at hs
    rw [seqIndex_allocate]
    split at hs
    · rename_i he
      cases hs
      rw [if_pos rfl, he.2]
    · split
      · rename_i he
        exact hpad sb q s (he ▸ hs)
      · exact h sb q s p hs

theorem Agree.same (hs : m.Same m') : Agree m' ↔ Agree m := by
  have hseq : ∀ p, m'.seqIndex p = m.seqIndex p := fun p => by rw [seqIndex, hs.pads, seqIndex]
  simp only [Agree, hs.slot, hseq]

theorem agree_mapFrame_iff (hd : cfg.dynamicSubBatching = true) (h : Slotted cfg m) (ha : Agree m)
    (ssId : SurfaceStreamId) (padIndex : ℕ) :
    Agree (m.mapFrame cfg ssId padIndex).1 ↔
      ssId ∈ m.ssidSubBatchMap ∨
        ∀ e ∈ m.freeSlot cfg, ∀ s ∈ m.streamsOf padIndex, m.Holds s e.2 := by
  unfold mapFrame
  split
  · rename_i hmem
    exact ⟨fun _ => .inl hmem, fun _ => ha⟩
  · rename_i hnew
    rw [or_iff_right hnew]
    have hcase := mapStreamToSubBatch_cases hd m ssId padIndex
    generalize m.mapStreamToSubBatch cfg ssId padIndex = r at hcase ⊢
    generalize hfree : m.freeSlot cfg = free at hcase ⊢
    cases hcase with
    | full hs =>
      exact ⟨fun _ => nofun, fun _ => (Agree.same hs).mpr ha⟩
    | @given m' sbId seqIdx hs =>
      have hnone := (freeSlotIn_eq_some hfree).2
      rw [agree_allocate_iff ((Agree.same hs).mpr ha) ((hs.slot _ _).trans hnone)]
      simp only [Option.mem_some, forall_eq', hs.slot, h.holds_iff]
      constructor
      · intro hq s hs
        obtain ⟨hmem, hp⟩ := mem_streamsOf.mp hs
        obtain ⟨sb, q, hslot⟩ := h.slot_of_mem hmem
        exact ⟨sb, by rw [← hq sb q s (hp ▸ hslot), hslot]⟩
      · intro hh sb q s hs
        have hp := h.pad hs
        obtain ⟨sb', hs'⟩ := hh s (mem_streamsOf.mpr ⟨h.mem_of_slot hs, hp.symm⟩)
        have hsb : sb = sb' := Option.some.inj ((h.mapped hs).symm.trans (h.mapped hs'))
        subst hsb
        exact h.unique hs hs'

end Step

/-! ### Removing a source -/

section Removal

variable {cfg : TrackerConfig} {m m' : StreamMaps} {ssId : SurfaceStreamId} {sbId : SubBatchId}
  {seqIdx : SeqIndex}

theorem seqIndex_of_touch (hp : m'.padIndexSeqIndexMap = Table.touch m.padIndexSeqIndexMap ssId 0)
    (padIndex : ℕ) : m'.seqIndex padIndex = m.seqIndex padIndex := by
  rw [seqIndex, hp, seqIndex, TreeMap.getD_eq_getD_getElem?, Table.touch_getElem?,
    TreeMap.getD_eq_getD_getElem?]
  split
  · rename_i h
    rw [h.1, TreeMap.getElem?_eq_none h.2]
    rfl
  · rfl

theorem seqIndex_of_erase {pad : ℕ}
    (hp : m'.padIndexSeqIndexMap = (Table.touch m.padIndexSeqIndexMap pad 0).erase pad)
    (padIndex : ℕ) : m'.seqIndex padIndex = if padIndex = pad then 0 else m.seqIndex padIndex := by
  rw [seqIndex, hp, seqIndex, TreeMap.getD_eq_getD_getElem?, Table.getElem?_erase, Table.touch_getElem?,
    TreeMap.getD_eq_getD_getElem?]
  split
  · rfl
  · rename_i hne
    rw [if_neg fun h => hne h.1]

/-- Only the slot of the stream is gone. -/
theorem Slotted.slot_released (h : Slotted cfg m) (hs : m.slot sbId seqIdx = some (ssId, getStreamId ssId))
    (hr : Released m m' ssId sbId seqIdx) {sb : SubBatchId} {q : SeqIndex} {s : SurfaceStreamId} {p : ℕ} :
    m'.slot sb q = some (s, p) ↔ m.slot sb q = some (s, p) ∧ s ≠ ssId := by
  rw [hr.slot]
  split
  · rename_i he
    refine ⟨nofun, ?_⟩
    rintro ⟨hq, hne⟩
    rw [he.1, he.2, hs] at hq
    cases hq
    exact absurd rfl hne
  · rename_i hne
    refine ⟨fun hq => ⟨hq, ?_⟩, fun hq => hq.1⟩
    rintro rfl
    have hsb : sb = sbId := Option.some.inj ((h.mapped hq).symm.trans (h.mapped hs))
    subst hsb
    exact hne ⟨rfl, h.unique hq hs⟩

/-- Some streams of a pad lost their slots, and the pad its entry. -/
structure Left (m m' : StreamMaps) (padIndex : ℕ) (gone : List SurfaceStreamId) : Prop where
  slot : ∀ {sb q s p}, m'.slot sb q = some (s, p) ↔ m.slot sb q = some (s, p) ∧ s ∉ gone
  seqIndex : ∀ p, m'.seqIndex p = if p = padIndex then 0 else m.seqIndex p

theorem agree_left_iff (h : Slotted cfg m) (ha : Agree m) {pad : ℕ} {gone : List SurfaceStreamId}
    (hl : Left m m' pad gone) (hseq : m.seqIndex pad ≠ 0) :
    Agree m' ↔ ∀ s ∈ m.streamsOf pad, s ∈ gone := by
  constructor
  · intro ha' s hs
    obtain ⟨hmem, hp⟩ := mem_streamsOf.mp hs
    obtain ⟨sb, q, hslot⟩ := h.slot_of_mem hmem
    rw [hp] at hslot
    by_contra hgone
    have h0 := ha' sb q s pad (hl.slot.mpr ⟨hslot, hgone⟩)
    rw [hl.seqIndex, if_pos rfl] at h0
    exact hseq ((ha sb q s pad hslot).symm.trans h0)
  · intro hall sb q s p hs
    obtain ⟨hslot, hgone⟩ := hl.slot.mp hs
    rw [hl.seqIndex, if_neg, ha sb q s p hslot]
    rintro rfl
    exact hgone (hall s (mem_streamsOf.mpr ⟨h.mem_of_slot hslot, (h.pad hslot).symm⟩))

/-- While the index of the pad is 0, each removal of one of its streams keeps
the maps in agreement. -/
theorem agree_removeStream_of_zero (h : Slotted cfg m) (ha : Agree m)
    (h0 : m.seqIndex (getStreamId ssId) = 0) :
    Agree (m.removeStream cfg ssId).1 ∧ (m.removeStream cfg ssId).1.seqIndex (getStreamId ssId) = 0 := by
  have hcase := removeStream_cases h ssId
  generalize m.removeStream cfg ssId = r at hcase ⊢
  cases hcase with
  | unmapped _ => exact ⟨ha, h0⟩
  | mismatch hs _ hr hp =>
    refine ⟨fun sb q s p hq => ?_, (seqIndex_of_touch hp _).trans h0⟩
    rw [seqIndex_of_touch hp]
    exact ha _ _ _ _ ((h.slot_released hs hr).mp hq).1
  | freed hs hr hp =>
    refine ⟨fun sb q s p hq => ?_, by rw [seqIndex_of_erase hp, if_pos rfl]⟩
    rw [seqIndex_of_erase hp, ha _ _ _ _ ((h.slot_released hs hr).mp hq).1]
    split
    · rename_i he
      rw [he, h0]
    · rfl

/-- `removeSource` on a pad with an index other than 0 frees the slot of the
first stream and, though it fails there, that of the second. -/
theorem left_removeStreams (h : Slotted cfg m) (ha : Agree m) {pad : ℕ} (hseq : m.seqIndex pad ≠ 0)
    {k : SurfaceStreamId} {rest : List SurfaceStreamId} (hpad : ∀ s ∈ k :: rest, getStreamId s = pad)
    (hk : k ∈ m.ssidSubBatchMap) :
    Left m (m.removeStreams cfg (k :: rest)).maps pad ((k :: rest).take 2) := by
  have hkp : getStreamId k = pad := hpad k (List.mem_cons_self ..)
  have hcase := removeStream_cases h k
  rw [removeStreams]
  generalize m.removeStream cfg k = r at hcase ⊢
  cases hcase with
  | unmapped hm => simp [TreeMap.mem_iff_isSome_getElem?, hm] at hk
  | mismatch hs hne _ _ => exact absurd (ha _ _ _ _ hs) hne
  | @freed m₁ sb hs hr hp =>
    have h₁ := h.released hs hr
    have hslot₁ {sb q s p} : m₁.slot sb q = some (s, p) ↔ m.slot sb q = some (s, p) ∧ s ≠ k :=
      h.slot_released hs hr
    have hseq₁ := seqIndex_of_erase (hkp ▸ hp)
    cases rest with
    | nil => exact ⟨fun {sb q s p} => by simp [removeStreams, hslot₁], by simpa [removeStreams] using hseq₁⟩
    | cons k' rest =>
      have hkp' : getStreamId k' = pad := hpad k' (by simp)
      have hcase := removeStream_cases h₁ k'
      simp only [removeStreams]
      generalize m₁.removeStream cfg k' = r at hcase ⊢
      cases hcase with
      | unmapped hm =>
        refine ⟨fun {sb q s p} => ?_, hseq₁⟩
        simp only [hslot₁, List.take_succ_cons, List.take_zero, List.mem_cons, List.not_mem_nil, or_false,
          not_or]
        refine ⟨fun hq => ⟨hq.1, hq.2, ?_⟩, fun hq => ⟨hq.1, hq.2.1⟩⟩
        rintro rfl
        rw [h₁.mapped (hslot₁.mpr hq)] at hm
        cases hm
      | mismatch hs' _ hr' hp' =>
        refine ⟨fun {sb q s p} => ?_, fun p => (seqIndex_of_touch hp' p).trans (hseq₁ p)⟩
        rw [h₁.slot_released hs' hr', hslot₁]
        simp [and_assoc]
      | freed hs' _ _ =>
        have := (hslot₁.mp hs').1
        rw [hkp', hseq₁, if_pos rfl] at this
        exact absurd (ha _ _ _ _ this).symm hseq

theorem agree_removeStreams_iff (h : Slotted cfg m) (ha : Agree m) {pad : ℕ} :
    ∀ {ssIds : List SurfaceStreamId}, (∀ s ∈ ssIds, getStreamId s = pad) →
      (Agree (m.removeStreams cfg ssIds).maps ↔
        m.seqIndex pad = 0 ∨ (∀ s ∈ ssIds.head?, s ∉ m.ssidSubBatchMap) ∨
          ∀ s ∈ m.streamsOf pad, s ∈ ssIds.take 2)
  | [], _ => by simpa [removeStreams] using ha
  | k :: rest, hpad => by
    by_cases h0 : m.seqIndex pad = 0
    · refine ⟨fun _ => .inl h0, fun _ => ?_⟩
      have hinv := @removeStreams_invariant cfg
        (I := fun m => Slotted cfg m ∧ Agree m ∧ m.seqIndex pad = 0) (k :: rest) ?_ m ⟨h, ha, h0⟩
      · exact hinv.2.1
      · rintro m s hs ⟨h, ha, h0⟩
        rw [← hpad s hs] at h0 ⊢
        exact ⟨h.removeStream s, agree_removeStream_of_zero h ha h0⟩
    · rw [or_iff_right h0]
      by_cases hk : k ∈ m.ssidSubBatchMap
      · rw [or_iff_right (fun hnone => hnone k rfl hk), agree_left_iff h ha
          (left_removeStreams h ha h0 hpad hk) h0]
      · refine ⟨fun _ => .inl fun s hs => by rwa [← Option.mem_some.mp hs], fun _ => ?_⟩
        have hm : m.ssidSubBatchMap[k]? = none := TreeMap.getElem?_eq_none hk
        simpa [removeStreams, StreamMaps.removeStream, hm] using ha

end Removal

/-! ### The condition on each step -/

/-- A new stream gets the sequence index that the mapped streams of its pad
have; `removeSource` is called for a pad with index 0, or frees nothing because
the first stream with an object id offset has no sub-batch, or every mapped
stream of the pad is one of the first two with an offset. -/
def KeepsIndex (cfg : TrackerConfig) (m : StreamMaps) : StreamOp → Prop
  | .dispatchFrame frame => frame.ssId ∈ m.ssidSubBatchMap ∨
      ∀ e ∈ m.freeSlot cfg, ∀ s ∈ m.streamsOf frame.padIndex.toNat, m.Holds s e.2
  | .removeSource sourceId _ => m.seqIndex sourceId = 0 ∨
      (∀ s ∈ (m.offsetStreams sourceId).head?, s ∉ m.ssidSubBatchMap) ∨
        ∀ s ∈ m.streamsOf sourceId, s ∈ (m.offsetStreams sourceId).take 2
  | .fillMOTFrame _ | .objectIdMapping _ _ => True

instance (cfg : TrackerConfig) (m : StreamMaps) (op : StreamOp) : Decidable (KeepsIndex cfg m op) := by
  cases op <;> unfold KeepsIndex <;> infer_instance

variable {cfg : TrackerConfig} {m : StreamMaps}

theorem agree_apply_iff (hd : Dynamic cfg) (h : Slotted cfg m) (ha : Agree m) (op : StreamOp) :
    Agree (m.apply cfg op) ↔ KeepsIndex cfg m op := by
  cases op with
  | dispatchFrame frame => exact agree_mapFrame_iff hd.dynamic h ha _ _
  | fillMOTFrame frame =>
    refine iff_of_true (fun sb q s p hs => ?_) trivial
    rw [StreamMaps.apply, fillMOTFrame, seqIndex_of_touch (m := m) rfl]
    exact ha sb q s p hs
  | objectIdMapping objectId ssId => exact iff_of_true ha trivial
  | removeSource sourceId flag =>
    rw [KeepsIndex, ← agree_removeStreams_iff h ha fun s hs => (mem_offsetStreams.mp hs).2,
      StreamMaps.apply, removeSource_eq hd.sizes]
    split <;> rfl

/-- **When the maps agree.** In a run of dynamic mode whose steps all meet the
condition the maps agree in every state reached, and they agree after a further
step exactly when it meets the condition too. -/
theorem consistent_run_iff (hd : Dynamic cfg)
    (h : Reach (StreamMaps.step cfg) (KeepsIndex cfg) (Started cfg) m) :
    Consistent cfg m ∧ ∀ op, Consistent cfg (m.apply cfg op) ↔ KeepsIndex cfg m op := by
  have hagree : Slotted cfg m ∧ Agree m := by
    refine h.invariant (I := fun m => Slotted cfg m ∧ Agree m) (fun m h0 => ?_) fun m op m' hI hok hs => ?_
    · rw [h0.eq hd]
      exact ⟨slotted_init, fun sb q s p hs => by simp [slot_empty] at hs⟩
    · cases hs
      exact ⟨hI.1.apply hd op, (agree_apply_iff hd hI.1 hI.2 op).mpr hok⟩
  obtain ⟨hslot, ha⟩ := hagree
  refine ⟨hslot.consistent_iff.mpr ha, fun op => ?_⟩
  rw [(hslot.apply hd op).consistent_iff, agree_apply_iff hd hslot ha]

/-- Dynamic sub-batches of the given sizes. -/
def dynamicConfig (sizes : List ℕ) : TrackerConfig where
  batchSize := sizes.sum
  trackingSurfType := 0
  trackingSurfTypeFromConfig := false
  inputTensorMeta := false
  numTransforms := 1
  subBatchesConfig := []
  subBatchSizes := sizes
  dynamicSubBatching := true
  sizes_eq := nofun

def NvDsFrameMeta.of (padIndex surfaceIndex : UInt32) (surfaceType : ℕ) : NvDsFrameMeta :=
  ⟨padIndex, surfaceIndex, surfaceType, 0⟩

/-- Two surfaces of pad 0 and one of pad 1 come, and pad 0 goes. -/
def twoSurfaces : List StreamOp :=
  [.dispatchFrame (.of 0 0 0), .dispatchFrame (.of 0 1 0), .objectIdMapping 5 0, .objectIdMapping 9 1,
    .dispatchFrame (.of 1 0 0), .removeSource 0 true]

/-- With two sub-batches both surfaces of pad 0 get index 0. -/
theorem consistent_run_iff_twoSurfaces :
    let cfg := dynamicConfig [2, 2]
    let m := (exec (StreamMaps.step cfg) (KeepsIndex cfg) empty twoSurfaces).get (by decide +kernel)
    Consistent cfg m ∧ ∀ op, Consistent cfg (m.apply cfg op) ↔ KeepsIndex cfg m op :=
  consistent_run_iff ⟨by decide, rfl⟩ (Reach.get_exec (started_empty ⟨by decide, rfl⟩) _)

/-- With one sub-batch the second surface of pad 0 takes index 1, and the frames
of the first one use it too. -/
theorem consistent_run_fails : ∃ m, Reach (StreamMaps.step (dynamicConfig [2])) anyStep
    (Started (dynamicConfig [2])) m ∧ ¬ Consistent (dynamicConfig [2]) m := by
  refine ⟨_, Reach.get_exec (started_empty ⟨by decide, rfl⟩)
    (show (exec (StreamMaps.step (dynamicConfig [2])) anyStep _ (twoSurfaces.take 2)).isSome by decide +kernel),
    fun h => ?_⟩
  exact absurd ((h.slot_iff 0 0 0).mp (by decide +kernel)).2 (by decide +kernel)

end Tracker
end DeepStream
