/-
# When `removeSource` releases everything

`removeSource` goes through the object id offsets, which a stream has from its
first tracked object on and keeps over a reset, while what it has to release is
in the other maps. It succeeds and leaves nothing of the source exactly when the
streams with an offset are those with a sub-batch and, with dynamic sub-batches,
the entry of the pad fits the slots as they are freed one after the other.
-/
import DeepStream.Tracker.Consistent

namespace DeepStream
namespace Tracker

open Std StreamMaps

/-- `removeSource` of a stream succeeds, nothing of it is left, everything of
the other streams is, and a new stream finds a slot if there was one to free. -/
structure ReleasesSource (cfg : TrackerConfig) (m : StreamMaps) (sourceId : StreamId) (r : Removal) :
    Prop where
  ok : r.ok = true
  ssids : ∀ ssId, getStreamId ssId = sourceId → ssId ∉ r.maps.ssidSubBatchMap
  slots : ∀ sbId seqIdx ssId padIndex, r.maps.slot sbId seqIdx = some (ssId, padIndex) →
    getStreamId ssId ≠ sourceId
  pads : cfg.dynamicSubBatching = true → sourceId ∉ r.maps.padIndexSeqIndexMap
  offsets : ∀ ssId, getStreamId ssId = sourceId → ssId ∉ r.maps.objectIdOffsetMap
  otherSsids : ∀ ssId, getStreamId ssId ≠ sourceId →
    r.maps.ssidSubBatchMap[ssId]? = m.ssidSubBatchMap[ssId]?
  otherSlots : ∀ sbId seqIdx ssId padIndex, getStreamId ssId ≠ sourceId →
    (r.maps.slot sbId seqIdx = some (ssId, padIndex) ↔ m.slot sbId seqIdx = some (ssId, padIndex))
  otherPads : ∀ padIndex, padIndex ≠ sourceId →
    r.maps.padIndexSeqIndexMap[padIndex]? = m.padIndexSeqIndexMap[padIndex]?
  otherOffsets : ∀ ssId, getStreamId ssId ≠ sourceId →
    r.maps.objectIdOffsetMap[ssId]? = m.objectIdOffsetMap[ssId]?
  reusable : cfg.dynamicSubBatching = true → (∃ ssId ∈ m.ssidSubBatchMap, getStreamId ssId = sourceId) →
    ∀ ssId padIndex, (r.maps.mapFrame cfg ssId padIndex).2 = true

/-- Some streams lost their sub-batches and slots, and only the entry of one
pad changed. -/
structure Gone (m m' : StreamMaps) (padIndex : ℕ) (gone : List SurfaceStreamId) : Prop where
  ssids : ∀ s, m'.ssidSubBatchMap[s]? = if s ∈ gone then none else m.ssidSubBatchMap[s]?
  slot : ∀ {sb q s p}, m'.slot sb q = some (s, p) ↔ m.slot sb q = some (s, p) ∧ s ∉ gone
  pads : ∀ p, p ≠ padIndex → m'.padIndexSeqIndexMap[p]? = m.padIndexSeqIndexMap[p]?
  offsets : m'.objectIdOffsetMap = m.objectIdOffsetMap

theorem Gone.nil (m : StreamMaps) (padIndex : ℕ) : Gone m m padIndex [] :=
  ⟨fun _ => by simp, by simp, fun _ _ => rfl, rfl⟩

theorem Gone.cons {m m₁ m₂ : StreamMaps} {padIndex : ℕ} {k : SurfaceStreamId}
    {rest : List SurfaceStreamId} (h : Gone m m₁ padIndex [k]) (h' : Gone m₁ m₂ padIndex rest) :
    Gone m m₂ padIndex (k :: rest) where
  ssids := fun s => by
    rw [h'.ssids, h.ssids]
    by_cases hr : s ∈ rest <;> simp [hr]
  slot := by
    intro sb q s p
    rw [h'.slot, h.slot]
    simp [and_assoc]
  pads := fun p hp => (h'.pads p hp).trans (h.pads p hp)
  offsets := h'.offsets.trans h.offsets

/-- The first of the streams holds the index that the pad has, the others hold
index 0, which the pad has once its entry is erased. -/
def StreamMaps.Releasable (m : StreamMaps) (padIndex : ℕ) : List SurfaceStreamId → Prop
  | [] => True
  | ssId :: rest => m.Holds ssId (m.seqIndex padIndex) ∧ ∀ s ∈ rest, m.Holds s 0

theorem StreamMaps.releasable_of_zero {m : StreamMaps} {padIndex : ℕ} (h : m.seqIndex padIndex = 0) :
    ∀ {ssIds : List SurfaceStreamId}, m.Releasable padIndex ssIds ↔ ∀ s ∈ ssIds, m.Holds s 0
  | [] => by simp [Releasable]
  | k :: rest => by simp [Releasable, h]

/-! ### Dynamic sub-batches -/

section Dynamic

variable {cfg : TrackerConfig} {m m' : StreamMaps} {pad : ℕ}

theorem Slotted.mem_of_holds (h : Slotted cfg m) {ssId : SurfaceStreamId} {seqIdx : SeqIndex}
    (hh : m.Holds ssId seqIdx) : ssId ∈ m.ssidSubBatchMap := by
  obtain ⟨sbId, hs⟩ := h.holds_iff.mp hh
  exact h.mem_of_slot hs

theorem Slotted.mem_of_releasable (h : Slotted cfg m) : ∀ {ssIds : List SurfaceStreamId},
    m.Releasable pad ssIds → ∀ s ∈ ssIds, s ∈ m.ssidSubBatchMap
  | k :: rest, hrel, s, hs => by
    rcases List.mem_cons.mp hs with rfl | hs
    · exact h.mem_of_holds hrel.1
    · exact h.mem_of_holds (hrel.2 s hs)

theorem Slotted.holds_released (h : Slotted cfg m) {k s : SurfaceStreamId} {sbId : SubBatchId}
    {seqIdx q : SeqIndex} (hs : m.slot sbId seqIdx = some (k, getStreamId k))
    (hr : Released m m' k sbId seqIdx) (hne : s ≠ k) : m'.Holds s q ↔ m.Holds s q := by
  rw [h.holds_iff, (h.released hs hr).holds_iff]
  simp only [h.slot_released hs hr, hne, ne_eq, not_false_eq_true, and_true]

theorem Slotted.gone_freed (h : Slotted cfg m) {k : SurfaceStreamId} {sbId : SubBatchId} {seqIdx : SeqIndex}
    (hs : m.slot sbId seqIdx = some (k, getStreamId k)) (hr : Released m m' k sbId seqIdx)
    (hp : m'.padIndexSeqIndexMap =
      (Table.touch m.padIndexSeqIndexMap (getStreamId k) 0).erase (getStreamId k)) :
    Gone m m' (getStreamId k) [k] where
  ssids := fun s => by simpa using hr.ssids s
  slot := by
    intro sb q s p
    rw [h.slot_released hs hr, List.mem_singleton]
  pads := fun p hne => by
    rw [hp, Table.getElem?_erase, if_neg hne, Table.touch_getElem?, if_neg fun he => hne he.1]
  offsets := hr.offsets

/-- The loop of `removeSource` goes through when each stream in turn holds the
index that the pad then has. -/
theorem removeStreams_ok_iff : ∀ {ssIds : List SurfaceStreamId} {m : StreamMaps}, Slotted cfg m →
    ssIds.Nodup → (∀ s ∈ ssIds, getStreamId s = pad) →
      ((m.removeStreams cfg ssIds).ok = true ↔ m.Releasable pad ssIds)
  | [], _, _, _, _ => by simp [removeStreams, Releasable]
  | k :: rest, m, h, hnodup, hpad => by
    have hkp : getStreamId k = pad := hpad k (List.mem_cons_self ..)
    have hcase := removeStream_cases h k
    simp only [removeStreams, Releasable]
    generalize m.removeStream cfg k = r at hcase ⊢
    cases hcase with
    | unmapped hm =>
      refine iff_of_false (by simp) fun hh => ?_
      obtain ⟨sb, hs⟩ := h.holds_iff.mp hh.1
      rw [h.mapped hs] at hm
      cases hm
    | mismatch hs hne hr hp =>
      refine iff_of_false (by simp) fun hh => ?_
      obtain ⟨sb, hs'⟩ := h.holds_iff.mp hh.1
      have hsb := Option.some.inj ((h.mapped hs).symm.trans (h.mapped hs'))
      subst hsb
      exact hne (hkp ▸ h.unique hs hs')
    | @freed m₁ sb hs hr hp =>
      have h₁ := h.released hs hr
      have h0 : m₁.seqIndex pad = 0 := by rw [seqIndex_of_erase (hkp ▸ hp), if_pos rfl]
      have hhead : m.Holds k (m.seqIndex pad) := h.holds_iff.mpr ⟨sb, hkp ▸ hs⟩
      rw [removeStreams_ok_iff h₁ (List.nodup_cons.mp hnodup).2
        fun s hs => hpad s (List.mem_cons_of_mem _ hs), releasable_of_zero h0, and_iff_right hhead]
      refine forall₂_congr fun s hsr => h.holds_released hs hr ?_
      rintro rfl
      exact (List.nodup_cons.mp hnodup).1 hsr

/-- Then exactly the streams of the list are gone, and the entry of the pad. -/
theorem removeStreams_gone : ∀ {ssIds : List SurfaceStreamId} {m : StreamMaps}, Slotted cfg m →
    (∀ s ∈ ssIds, getStreamId s = pad) → (m.removeStreams cfg ssIds).ok = true →
      Gone m (m.removeStreams cfg ssIds).maps pad ssIds ∧
        (pad ∈ (m.removeStreams cfg ssIds).maps.padIndexSeqIndexMap ↔
          ssIds = [] ∧ pad ∈ m.padIndexSeqIndexMap)
  | [], m, _, _, _ => by simpa [removeStreams] using Gone.nil m pad
  | k :: rest, m, h, hpad, hok => by
    have hkp : getStreamId k = pad := hpad k (List.mem_cons_self ..)
    have hcase := removeStream_cases h k
    simp only [removeStreams] at hok ⊢
    generalize m.removeStream cfg k = r at hcase hok ⊢
    cases hcase with
    | unmapped _ => cases hok
    | mismatch _ _ _ _ => cases hok
    | @freed m₁ sb hs hr hp =>
      obtain ⟨hgone, hmem⟩ := removeStreams_gone (h.released hs hr)
        (fun s hs => hpad s (List.mem_cons_of_mem _ hs)) hok
      refine ⟨(hkp ▸ h.gone_freed hs hr hp).cons hgone, ?_⟩
      rw [hmem, hp, hkp]
      simp

end Dynamic

/-! ### Static sub-batches -/

/-- Static sub-batches have no slots. -/
structure Unslotted (cfg : TrackerConfig) (m : StreamMaps) : Prop where
  alloc : m.subBatchAllocationMap = ∅
  lt : ∀ {ssId : SurfaceStreamId} {sbId : SubBatchId},
    m.ssidSubBatchMap[ssId]? = some sbId → sbId < cfg.subBatchSizes.length

namespace Unslotted

variable {cfg : TrackerConfig} {m m' : StreamMaps} {pad : ℕ}

theorem slot (h : Unslotted cfg m) (sbId : SubBatchId) (seqIdx : SeqIndex) : m.slot sbId seqIdx = none := by
  simp [StreamMaps.slot, StreamMaps.subBatch, h.alloc]

theorem removeStream_some (h : Unslotted cfg m) {ssId : SurfaceStreamId} {sbId : SubBatchId}
    (hs : m.ssidSubBatchMap[ssId]? = some sbId) : m.removeStream cfg ssId =
      ({ m with ssidSubBatchMap := m.ssidSubBatchMap.erase ssId }, some sbId) := by
  simp [removeStream, releaseSlot, h.alloc, hs, h.lt hs]

theorem erase (h : Unslotted cfg m) (ssId : SurfaceStreamId) :
    Unslotted cfg { m with ssidSubBatchMap := m.ssidSubBatchMap.erase ssId } where
  alloc := h.alloc
  lt := by
    intro s sb hs
    rw [Table.getElem?_erase] at hs
    split at hs
    · cases hs
    · exact h.lt hs

theorem removeStream (h : Unslotted cfg m) (ssId : SurfaceStreamId) :
    Unslotted cfg (m.removeStream cfg ssId).1 := by
  cases hs : m.ssidSubBatchMap[ssId]? with
  | none => simpa [StreamMaps.removeStream, hs] using h
  | some sbId =>
    rw [h.removeStream_some hs]
    exact h.erase ssId

theorem gone_erase (h : Unslotted cfg m) (ssId : SurfaceStreamId) :
    Gone m { m with ssidSubBatchMap := m.ssidSubBatchMap.erase ssId } pad [ssId] where
  ssids := fun s => by simpa using Table.getElem?_erase m.ssidSubBatchMap ssId s
  slot := by
    intro sb q s p
    rw [h.slot, (h.erase ssId).slot]
    simp
  pads := fun _ _ => rfl
  offsets := rfl

/-- The loop of `removeSource` goes through when every stream has a sub-batch,
and then exactly these streams are gone. -/
theorem removeStreams_iff : ∀ {ssIds : List SurfaceStreamId} {m : StreamMaps}, Unslotted cfg m →
    ssIds.Nodup → ((m.removeStreams cfg ssIds).ok = true ↔ ∀ s ∈ ssIds, s ∈ m.ssidSubBatchMap) ∧
      ((m.removeStreams cfg ssIds).ok = true → Gone m (m.removeStreams cfg ssIds).maps pad ssIds)
  | [], m, _, _ => by simpa [removeStreams] using Gone.nil m pad
  | k :: rest, m, h, hnodup => by
    simp only [removeStreams]
    cases hs : m.ssidSubBatchMap[k]? with
    | none =>
      have hk : k ∉ m.ssidSubBatchMap := fun hk => by
        simp [TreeMap.mem_iff_isSome_getElem?, hs] at hk
      have hnone : m.removeStream cfg k = (m, none) := by simp [StreamMaps.removeStream, hs]
      simp [hnone, hk]
    | some sb =>
      have hk : k ∈ m.ssidSubBatchMap := TreeMap.mem_iff_isSome_getElem?.mpr (by rw [hs]; rfl)
      obtain ⟨hiff, hgone⟩ := removeStreams_iff (h.erase k) (List.nodup_cons.mp hnodup).2
      rw [h.removeStream_some hs]
      refine ⟨?_, fun hok => (h.gone_erase k).cons (hgone hok)⟩
      rw [hiff, List.forall_mem_cons, and_iff_right hk]
      refine forall₂_congr fun s hsr => ?_
      have hne : s ≠ k := fun he => (List.nodup_cons.mp hnodup).1 (he ▸ hsr)
      simp [hne.symm]

theorem apply (hsub : cfg.subBatchSizes.length ≠ 0) (hstat : cfg.dynamicSubBatching = false)
    (h : Unslotted cfg m) (op : StreamOp) : Unslotted cfg (m.apply cfg op) := by
  cases op with
  | dispatchFrame frame =>
    simp only [StreamMaps.apply, mapFrame, mapStreamToSubBatch, hstat, Bool.false_eq_true, if_false]
    split
    · exact h
    · split
      · exact h
      · rename_i sbId hfind
        refine ⟨h.alloc, fun {s sb} hs => ?_⟩
        rw [Table.getElem?_insert] at hs
        split at hs
        · cases hs
          obtain ⟨hlt, -⟩ := List.findIdx?_eq_some_iff_getElem.mp hfind
          rwa [cfg.sizes_eq hstat, List.length_map]
        · exact h.lt hs
  | fillMOTFrame frame => exact ⟨h.alloc, h.lt⟩
  | objectIdMapping objectId ssId => exact ⟨h.alloc, h.lt⟩
  | removeSource sourceId flag =>
    have hloop := @removeStreams_invariant cfg (Unslotted cfg) (m.offsetStreams sourceId)
      (fun m ssId _ h => h.removeStream ssId) m h
    rw [StreamMaps.apply, removeSource_eq hsub]
    split
    · exact ⟨hloop.alloc, hloop.lt⟩
    · exact hloop

theorem of_reach (hsub : cfg.subBatchSizes.length ≠ 0) (hstat : cfg.dynamicSubBatching = false)
    {ok : StreamMaps → StreamOp → Prop} (h : Reach (StreamMaps.step cfg) ok (Started cfg) m) :
    Unslotted cfg m := by
  refine h.invariant (fun m h0 => ?_) fun m op m' hI _ hs => ?_
  · simp only [Started, init, hsub, hstat, if_false, Bool.false_eq_true] at h0
    obtain ⟨pads, -, rfl⟩ := Option.map_eq_some_iff.mp h0
    exact ⟨rfl, fun hs => by simp [empty] at hs⟩
  · cases hs
    exact hI.apply hsub hstat op

end Unslotted

/-! ### The condition -/

/-- The streams of the source with an object id offset are those with a
sub-batch; with dynamic sub-batches the first of them holds the sequence index
that the pad has and the others hold 0, or there is none and the pad has no
entry. -/
structure OffsetsMatch (cfg : TrackerConfig) (m : StreamMaps) (sourceId : StreamId) : Prop where
  same : ∀ ssId, getStreamId ssId = sourceId → (ssId ∈ m.objectIdOffsetMap ↔ ssId ∈ m.ssidSubBatchMap)
  releasable : cfg.dynamicSubBatching = true → m.Releasable sourceId (m.offsetStreams sourceId)
  unused : cfg.dynamicSubBatching = true → m.offsetStreams sourceId = [] →
    sourceId ∉ m.padIndexSeqIndexMap

section Main

variable {cfg : TrackerConfig} {m : StreamMaps} {sourceId : StreamId}

theorem mem_eraseOffsets {ssId : SurfaceStreamId} : ssId ∈ (m.eraseOffsets sourceId).objectIdOffsetMap ↔
    ssId ∈ m.objectIdOffsetMap ∧ getStreamId ssId ≠ sourceId := by
  simp [eraseOffsets, TreeMap.mem_filter]

theorem getElem?_eraseOffsets {ssId : SurfaceStreamId} (h : getStreamId ssId ≠ sourceId) :
    (m.eraseOffsets sourceId).objectIdOffsetMap[ssId]? = m.objectIdOffsetMap[ssId]? := by
  rw [eraseOffsets, TreeMap.getElem?_filter']
  cases m.objectIdOffsetMap[ssId]? <;> simp [h]

/-- A sub-batch with a free slot takes a new stream. -/
theorem mapFrame_of_room (hdyn : cfg.dynamicSubBatching = true) {sbId : SubBatchId}
    (h : (m.subBatch sbId).size < cfg.subBatchSizes.getD sbId 0) (ssId : SurfaceStreamId) (padIndex : ℕ) :
    (m.mapFrame cfg ssId padIndex).2 = true := by
  rw [mapFrame]
  split
  · rfl
  · have hcase := mapStreamToSubBatch_cases hdyn m ssId padIndex
    have hfree := freeSlot_isSome h
    generalize m.mapStreamToSubBatch cfg ssId padIndex = r at hcase ⊢
    generalize m.freeSlot cfg = free at hcase hfree
    cases hcase with
    | full _ => cases hfree
    | given _ => rfl

theorem removeSource_ok (hsub : cfg.subBatchSizes.length ≠ 0) {flag : Bool} :
    (m.removeSource cfg sourceId flag).ok = (m.removeStreams cfg (m.offsetStreams sourceId)).ok := by
  rw [removeSource_eq hsub]
  split <;> rfl

/-- A loop that goes through leaves nothing of the source, unless a stream with
a sub-batch has no offset or the entry of the pad is left. -/
theorem releasesSource_of_gone (hsub : cfg.subBatchSizes.length ≠ 0) {loop : Removal}
    (hloop : m.removeStreams cfg (m.offsetStreams sourceId) = loop) (hok : loop.ok = true)
    (hgone : Gone m loop.maps sourceId (m.offsetStreams sourceId))
    (hmapped : ∀ {sb q s p}, m.slot sb q = some (s, p) → s ∈ m.ssidSubBatchMap)
    (hslot : cfg.dynamicSubBatching = true → Slotted cfg m ∧ Slotted cfg loop.maps) :
    ReleasesSource cfg m sourceId (m.removeSource cfg sourceId true) ↔
      (∀ ssId ∈ m.streamsOf sourceId, ssId ∈ m.offsetStreams sourceId) ∧
        (cfg.dynamicSubBatching = true → sourceId ∉ loop.maps.padIndexSeqIndexMap) := by
  have hr : m.removeSource cfg sourceId true = { loop with maps := loop.maps.eraseOffsets sourceId } := by
    rw [removeSource_eq hsub, hloop, if_pos ⟨hok, rfl⟩]
  have hmem : ∀ s, s ∈ loop.maps.ssidSubBatchMap ↔ s ∈ m.ssidSubBatchMap ∧ s ∉ m.offsetStreams sourceId := by
    intro s
    rw [TreeMap.mem_iff_isSome_getElem?, hgone.ssids, TreeMap.mem_iff_isSome_getElem?]
    split <;> simp_all
  rw [hr]
  constructor
  · intro h
    refine ⟨fun s hs => ?_, h.pads⟩
    obtain ⟨hsm, hp⟩ := mem_streamsOf.mp hs
    by_contra hoff
    exact h.ssids s hp ((hmem s).mpr ⟨hsm, hoff⟩)
  · rintro ⟨hall, hpads⟩
    have hother : ∀ s, getStreamId s ≠ sourceId → s ∉ m.offsetStreams sourceId := fun s hs hoff =>
      hs (mem_offsetStreams.mp hoff).2
    have hgoneAll : ∀ s, getStreamId s = sourceId → s ∉ loop.maps.ssidSubBatchMap := fun s hs hsm =>
      ((hmem s).mp hsm).2 (hall s (mem_streamsOf.mpr ⟨((hmem s).mp hsm).1, hs⟩))
    refine ⟨hok, hgoneAll, fun sb q s p hs hp => ?_, hpads, fun s hs => ?_, fun s hs => ?_,
      fun sb q s p hs => ?_, hgone.pads, fun s hs => ?_, fun hdyn => ?_⟩
    · obtain ⟨hs, hoff⟩ := hgone.slot.mp hs
      exact hoff (hall s (mem_streamsOf.mpr ⟨hmapped hs, hp⟩))
    · rw [mem_eraseOffsets]
      exact fun h => h.2 hs
    · exact (hgone.ssids s).trans (if_neg (hother s hs))
    · exact hgone.slot.trans (and_iff_left (hother s hs))
    · rw [getElem?_eraseOffsets hs, hgone.offsets]
    · rintro ⟨s, hsm, hp⟩
      obtain ⟨hm, hm'⟩ := hslot hdyn
      obtain ⟨sb, q, hs⟩ := hm.slot_of_mem hsm
      have hfree : loop.maps.slot sb q = none := by
        cases he : loop.maps.slot sb q with
        | none => rfl
        | some e =>
          obtain ⟨hs', hoff⟩ := hgone.slot.mp he
          have hes : e = (s, getStreamId s) := Option.some.inj (hs'.symm.trans hs)
          exact absurd (hall s (mem_streamsOf.mpr ⟨hsm, hp⟩)) (by simpa [hes] using hoff)
      refine @mapFrame_of_room cfg _ hdyn sb (Table.size_lt_of_free (fun a ha => ?_) (hm.lt hs) ?_)
      · obtain ⟨e, he⟩ := Option.isSome_iff_exists.mp (TreeMap.mem_iff_isSome_getElem?.mp ha)
        exact hm'.lt he
      · intro he
        have hsome : (loop.maps.slot sb q).isSome := TreeMap.mem_iff_isSome_getElem?.mp he
        rw [hfree] at hsome
        cases hsome

/-- **When `removeSource` releases everything**: in sub-batch mode, in every
state that any operations reach. -/
theorem releasesSource_iff (hsub : cfg.subBatchSizes.length ≠ 0)
    (h : Reach (StreamMaps.step cfg) anyStep (Started cfg) m) (sourceId : StreamId) :
    ReleasesSource cfg m sourceId (m.removeSource cfg sourceId true) ↔ OffsetsMatch cfg m sourceId := by
  have hpad : ∀ s ∈ m.offsetStreams sourceId, getStreamId s = sourceId := fun s hs => (mem_offsetStreams.mp hs).2
  have hsame : ((∀ s ∈ m.streamsOf sourceId, s ∈ m.offsetStreams sourceId) ∧
      ∀ s ∈ m.offsetStreams sourceId, s ∈ m.ssidSubBatchMap) ↔
        ∀ s, getStreamId s = sourceId → (s ∈ m.objectIdOffsetMap ↔ s ∈ m.ssidSubBatchMap) := by
    simp only [mem_streamsOf, mem_offsetStreams]
    exact ⟨fun h s hs => ⟨fun hm => h.2 s ⟨hm, hs⟩, fun hm => (h.1 s ⟨hm, hs⟩).1⟩,
      fun h => ⟨fun s hs => ⟨(h s hs.2).mpr hs.1, hs.2⟩, fun s hs => (h s hs.2).mp hs.1⟩⟩
  cases hdyn : cfg.dynamicSubBatching with
  | true =>
    have hm := Slotted.of_reach ⟨hsub, hdyn⟩ h
    have hiff := removeStreams_ok_iff hm (m.nodup_offsetStreams sourceId) hpad
    have hafter := @removeStreams_invariant cfg (Slotted cfg) (m.offsetStreams sourceId)
      (fun m ssId _ h => h.removeStream ssId) m hm
    constructor
    · intro hrs
      have hok := (removeSource_ok hsub).symm.trans hrs.ok
      obtain ⟨hgone, hmem⟩ := removeStreams_gone hm hpad hok
      obtain ⟨hall, hpads⟩ :=
        (releasesSource_of_gone hsub rfl hok hgone hm.mem_of_slot fun _ => ⟨hm, hafter⟩).mp hrs
      exact ⟨hsame.mp ⟨hall, hm.mem_of_releasable (hiff.mp hok)⟩, fun _ => hiff.mp hok,
        fun _ hnil hin => hpads hdyn (hmem.mpr ⟨hnil, hin⟩)⟩
    · intro hmatch
      have hok := hiff.mpr (hmatch.releasable hdyn)
      obtain ⟨hgone, hmem⟩ := removeStreams_gone hm hpad hok
      exact (releasesSource_of_gone hsub rfl hok hgone hm.mem_of_slot fun _ => ⟨hm, hafter⟩).mpr
        ⟨(hsame.mpr hmatch.same).1, fun hd hin => hmatch.unused hd (hmem.mp hin).1 (hmem.mp hin).2⟩
  | false =>
    have hm := Unslotted.of_reach hsub hdyn h
    have hfalse : ¬ cfg.dynamicSubBatching = true := by simp [hdyn]
    obtain ⟨hiff, hgone⟩ := @Unslotted.removeStreams_iff cfg sourceId _ _ hm (m.nodup_offsetStreams sourceId)
    have hmapped : ∀ {sb q s p}, m.slot sb q = some (s, p) → s ∈ m.ssidSubBatchMap := fun hs => by
      rw [hm.slot] at hs
      cases hs
    constructor
    · intro hrs
      have hok := (removeSource_ok hsub).symm.trans hrs.ok
      have hall := ((releasesSource_of_gone hsub rfl hok (hgone hok) hmapped
        fun hd => absurd hd hfalse).mp hrs).1
      exact ⟨hsame.mp ⟨hall, hiff.mp hok⟩, fun hd => absurd hd hfalse, fun hd => absurd hd hfalse⟩
    · intro hmatch
      obtain ⟨hall, hoff⟩ := hsame.mpr hmatch.same
      have hok := hiff.mpr hoff
      exact (releasesSource_of_gone hsub rfl hok (hgone hok) hmapped fun hd => absurd hd hfalse).mpr
        ⟨hall, fun hd => absurd hd hfalse⟩

/-- A stream that had objects goes and frees its slot. -/
theorem releasesSource_iff_trackedStream :
    let cfg := dynamicConfig [2, 2]
    let m := (exec (StreamMaps.step cfg) anyStep empty twoSurfaces.dropLast).get (by decide +kernel)
    ReleasesSource cfg m 0 (m.removeSource cfg 0 true) ↔ OffsetsMatch cfg m 0 :=
  releasesSource_iff (by decide) (Reach.get_exec (started_empty ⟨by decide, rfl⟩) _) 0

/-- A stream without a tracked object keeps its slot. -/
theorem releasesSource_fails : ∃ m, Reach (StreamMaps.step (dynamicConfig [1])) anyStep
    (Started (dynamicConfig [1])) m ∧
      ¬ ReleasesSource (dynamicConfig [1]) m 0 (m.removeSource (dynamicConfig [1]) 0 true) := by
  refine ⟨_, Reach.get_exec (started_empty ⟨by decide, rfl⟩)
    (show (exec (StreamMaps.step (dynamicConfig [1])) anyStep _ (twoSurfaces.take 1)).isSome by decide +kernel),
    fun h => ?_⟩
  exact h.ssids 0 (by decide) (by decide +kernel)

end Main
end Tracker
end DeepStream
