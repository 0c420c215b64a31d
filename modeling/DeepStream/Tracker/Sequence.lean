/-
# The sequence indices of the frames

What `padIndexSeqIndexMap` gives in the three modes. Without sub-batches a pad
below the batch size has its own number and every other pad 0. With static
sub-batches a pad has its place in the list of its sub-batch. With dynamic
sub-batches a pad has the index of the slot that its stream owns, as long as the
maps agree.
-/
import DeepStream.Tracker.Frames

namespace DeepStream
namespace Tracker

open Std StreamMaps

variable {cfg : TrackerConfig} {m m' : StreamMaps}

namespace StreamMaps

/-! ### The frames of a call -/

/-- The frame that `fillMOTFrame` makes. -/
def frameOf (m : StreamMaps) (e : SurfaceStreamId × NvDsFrameMeta) : NvMOTFrame :=
  ⟨e.1, m.seqIndex e.2.padIndex.toNat, e.2.frameNum⟩

/-- The same sub-batches of the streams, slots and sequence indices. -/
structure SameIndices (m m' : StreamMaps) : Prop where
  ssids : m'.ssidSubBatchMap = m.ssidSubBatchMap
  alloc : m'.subBatchAllocationMap = m.subBatchAllocationMap
  seqIndex : ∀ padIndex, m'.seqIndex padIndex = m.seqIndex padIndex

theorem SameIndices.slot (h : m.SameIndices m') (sbId : SubBatchId) (seqIdx : SeqIndex) :
    m'.slot sbId seqIdx = m.slot sbId seqIdx := by
  rw [StreamMaps.slot, subBatch, h.alloc, StreamMaps.slot, subBatch]

theorem SameIndices.trans {m'' : StreamMaps} (h : m.SameIndices m') (h' : m'.SameIndices m'') :
    m.SameIndices m'' :=
  ⟨h'.ssids.trans h.ssids, h'.alloc.trans h.alloc, fun p => (h'.seqIndex p).trans (h.seqIndex p)⟩

theorem sameIndices_apply {op : StreamOp} (hop : op.Reads) : m.SameIndices (m.apply cfg op) := by
  cases op with
  | fillMOTFrame frame => exact ⟨rfl, rfl, seqIndex_of_touch rfl⟩
  | objectIdMapping objectId ssId => exact ⟨rfl, rfl, fun _ => rfl⟩
  | dispatchFrame frame => exact absurd hop id
  | removeSource sourceId flag => exact absurd hop id

theorem sameIndices_applyAll : ∀ (ops : List StreamOp) (m : StreamMaps), (∀ op ∈ ops, op.Reads) →
    m.SameIndices (m.applyAll cfg ops)
  | [], _, _ => ⟨rfl, rfl, fun _ => rfl⟩
  | op :: ops, _, hops => (sameIndices_apply (hops op (List.mem_cons_self ..))).trans
      (sameIndices_applyAll ops _ fun op hop => hops op (List.mem_cons_of_mem _ hop))

theorem frameOf_eq (h : m.SameIndices m') : m'.frameOf = m.frameOf := by
  funext e
  rw [frameOf, h.seqIndex, frameOf]

theorem fillMOTFrames_frames : ∀ (frames : List (SurfaceStreamId × NvDsFrameMeta)) (m : StreamMaps),
    (m.fillMOTFrames frames).2 = frames.map m.frameOf
  | [], _ => rfl
  | (ssId, frame) :: rest, m => by
    have hsame : m.SameIndices (m.fillMOTFrame ssId frame).1 := ⟨rfl, rfl, seqIndex_of_touch rfl⟩
    rw [fillMOTFrames, fillMOTFrames_frames rest, frameOf_eq hsame]
    rfl

/-- The calls of `processBatch` have the frames of the lists. -/
theorem mem_libProcessLists (cfg : TrackerConfig) : ∀ {lists : List FrameMap} {m : StreamMaps}
    {objs : List TrackedObjs} {call : LibCall}, call ∈ (m.libProcessLists lists objs).2 →
      ∃ l ∈ lists, call = ⟨0, l.toList.map m.frameOf⟩
  | l :: rest, m, objs, call, hcall => by
    rcases List.mem_cons.mp hcall with rfl | hcall
    · exact ⟨l, List.mem_cons_self .., congrArg _ (fillMOTFrames_frames ..)⟩
    · obtain ⟨l', hl', rfl⟩ := mem_libProcessLists cfg hcall
      obtain ⟨ops, hops, he⟩ := @libProcess_maps cfg m l (objs.headD [])
      refine ⟨l', List.mem_cons_of_mem _ hl', ?_⟩
      rw [he, frameOf_eq (sameIndices_applyAll ops m hops)]

end StreamMaps

/-! ### Without sub-batches -/

theorem getElem?_identityPads (n k : ℕ) : (identityPads n)[k]? = if k < n then some k else none := by
  unfold identityPads
  induction n with
  | zero => simp
  | succ n ih =>
    rw [List.range_succ, List.foldl_append, List.foldl_cons, List.foldl_nil, Table.getElem?_insert, ih]
    by_cases hk : k = n
    · simp [hk]
    · rw [if_neg hk]
      exact if_congr (by omega) rfl rfl

/-- The index of a pad without sub-batches. -/
def plainIndex (cfg : TrackerConfig) (padIndex : ℕ) : SeqIndex := if padIndex < cfg.batchSize then padIndex else 0

/-- Without sub-batches no stream gets a slot. -/
theorem sameIndices_mapFrame_plain (hsub : cfg.subBatchSizes.length = 0) (ssId : SurfaceStreamId)
    (padIndex : ℕ) (p : ℕ) : (m.mapFrame cfg ssId padIndex).1.seqIndex p = m.seqIndex p := by
  have hnil : cfg.subBatchSizes = [] := List.length_eq_zero_iff.mp hsub
  unfold mapFrame
  split
  · rfl
  · cases hdyn : cfg.dynamicSubBatching with
    | true =>
      have hcase := mapStreamToSubBatch_cases hdyn m ssId padIndex
      have hvisits : visits cfg = [] := by simp [visits, TrackerConfig.maxSubBatchSize, hnil]
      rw [freeSlot, hvisits, freeSlotIn] at hcase
      generalize m.mapStreamToSubBatch cfg ssId padIndex = r at hcase ⊢
      generalize hfree : (none : Option (SubBatchId × SeqIndex)) = free at hcase
      cases hcase with
      | full hs => rw [seqIndex, hs.pads, seqIndex]
      | given hs => cases hfree
    | false =>
      have hsources : cfg.subBatchesConfig = [] := by
        have := cfg.sizes_eq hdyn
        rw [hnil] at this
        exact List.map_eq_nil_iff.mp this.symm
      simp [mapStreamToSubBatch, hdyn, hsources]

theorem seqIndex_plain (hsub : cfg.subBatchSizes.length = 0) (h : Reachable cfg m) (padIndex : ℕ) :
    m.seqIndex padIndex = plainIndex cfg padIndex := by
  refine h.invariant (I := fun m => ∀ p, m.seqIndex p = plainIndex cfg p) (fun m h0 p => ?_)
    (fun m op m' hI _ hs p => ?_) padIndex
  · simp only [StreamMaps.Started, StreamMaps.init, hsub, if_true, Option.some.injEq] at h0
    rw [← h0, seqIndex, TreeMap.getD_eq_getD_getElem?, getElem?_identityPads, plainIndex]
    split <;> rfl
  · cases hs
    cases op with
    | dispatchFrame frame => exact (sameIndices_mapFrame_plain hsub _ _ p).trans (hI p)
    | fillMOTFrame frame => exact (seqIndex_of_touch rfl p).trans (hI p)
    | objectIdMapping objectId ssId => exact hI p
    | removeSource sourceId flag =>
      simp only [StreamMaps.apply, StreamMaps.removeSource, hsub, if_true]
      split <;> exact hI p

/-! ### Static sub-batches -/

theorem staticPadsOf_spec : ∀ (sources : List ℕ) (k : ℕ) (t t' : TreeMap ℕ SeqIndex),
    (sources.zipIdx k).foldlM (fun t e => if e.1 ∈ t then none else some (t.insert e.1 e.2)) t = some t' →
      (∀ i pad : ℕ, sources[i]? = some pad → t'[pad]? = some (k + i)) ∧
        ∀ (pad q : ℕ), t[pad]? = some q → t'[pad]? = some q
  | [], _, t, t', h => by
    cases h
    exact ⟨by simp, fun _ _ h => h⟩
  | p :: sources, k, t, t', h => by
    rw [List.zipIdx_cons, List.foldlM_cons] at h
    dsimp only at h
    split at h
    · cases h
    · rename_i hnew
      obtain ⟨hplaces, hkeep⟩ := staticPadsOf_spec sources (k + 1) _ t' h
      refine ⟨fun i pad hi => ?_, fun pad q hq => hkeep pad q ?_⟩
      · cases i with
        | zero =>
          cases hi
          exact hkeep p k (by rw [Table.getElem?_insert, if_pos rfl])
        | succ i =>
          rw [hplaces i pad hi]
          exact congrArg some (by omega)
      · rw [Table.getElem?_insert, if_neg, hq]
        rintro rfl
        exact hnew (TreeMap.mem_iff_isSome_getElem?.mpr (by rw [hq]; rfl))

/-- `init` gives each source id its place in its list. -/
theorem staticPads_spec : ∀ (subBatches : List (List ℕ)) (t t' : TreeMap ℕ SeqIndex),
    subBatches.foldlM (fun t sources => staticPadsOf sources t) t = some t' →
      (∀ sources ∈ subBatches, ∀ (i pad : ℕ), sources[i]? = some pad → t'[pad]? = some i) ∧
        ∀ (pad q : ℕ), t[pad]? = some q → t'[pad]? = some q
  | [], t, t', h => by
    cases h
    exact ⟨nofun, fun _ _ h => h⟩
  | sources :: subBatches, t, t', h => by
    rw [List.foldlM_cons] at h
    obtain ⟨t₁, ht₁, h⟩ := Option.bind_eq_some_iff.mp h
    obtain ⟨hplaces, hkeep⟩ := staticPadsOf_spec sources 0 t t₁ ht₁
    obtain ⟨hplaces', hkeep'⟩ := staticPads_spec subBatches t₁ t' h
    refine ⟨fun l hl i pad hi => ?_, fun pad q hq => hkeep' pad q (hkeep pad q hq)⟩
    rcases List.mem_cons.mp hl with rfl | hl
    · exact hkeep' pad i (by rw [hplaces i pad hi, Nat.zero_add])
    · exact hplaces' l hl i pad hi

/-- The static sub-batch of a pad. -/
def home (cfg : TrackerConfig) (padIndex : ℕ) : Option SubBatchId :=
  cfg.subBatchesConfig.findIdx? fun sources => padIndex ∈ sources

/-- The indices are the places in the lists, and a stream is in the sub-batch of
its pad. -/
structure StaticMaps (cfg : TrackerConfig) (m : StreamMaps) : Prop where
  unslotted : Unslotted cfg m
  seqIndex : ∀ sources ∈ cfg.subBatchesConfig, ∀ i pad, sources[i]? = some pad → m.seqIndex pad = i
  home : ∀ {ssId : SurfaceStreamId} {sbId : SubBatchId},
    m.ssidSubBatchMap[ssId]? = some sbId → home cfg (getStreamId ssId) = some sbId

namespace StaticMaps

theorem removeStream (h : StaticMaps cfg m) (ssId : SurfaceStreamId) :
    StaticMaps cfg (m.removeStream cfg ssId).1 := by
  cases hs : m.ssidSubBatchMap[ssId]? with
  | none => simpa [StreamMaps.removeStream, hs] using h
  | some sbId =>
    rw [h.unslotted.removeStream_some hs]
    refine ⟨h.unslotted.erase ssId, h.seqIndex, fun {k sb} hk => @home _ _ h k sb ?_⟩
    rw [Table.getElem?_erase] at hk
    split at hk
    · cases hk
    · exact hk

theorem apply (hsub : cfg.subBatchSizes.length ≠ 0) (hstat : cfg.dynamicSubBatching = false)
    (h : StaticMaps cfg m) (op : StreamOp) : StaticMaps cfg (m.apply cfg op) := by
  have hun := h.unslotted.apply hsub hstat op
  cases op with
  | dispatchFrame frame =>
    refine ⟨hun, ?_, ?_⟩
    all_goals
      simp only [StreamMaps.apply, mapFrame, mapStreamToSubBatch, hstat, Bool.false_eq_true, if_false]
      split
    · exact h.seqIndex
    · split <;> exact h.seqIndex
    · exact h.home
    · split
      · exact h.home
      · rename_i sbId hfind
        intro k sb hk
        rw [Table.getElem?_insert] at hk
        split at hk
        · rename_i hkf
          cases hk
          rw [hkf, getStreamId_ssId]
          exact hfind
        · exact h.home hk
  | fillMOTFrame frame =>
    refine ⟨hun, fun sources hsources i pad hi => ?_, h.home⟩
    exact (seqIndex_of_touch rfl pad).trans (h.seqIndex sources hsources i pad hi)
  | objectIdMapping objectId ssId => exact ⟨hun, h.seqIndex, h.home⟩
  | removeSource sourceId flag =>
    have hloop := @removeStreams_invariant cfg (StaticMaps cfg) (m.offsetStreams sourceId)
      (fun m ssId _ h => h.removeStream ssId) m h
    rw [StreamMaps.apply, removeSource_eq hsub] at hun ⊢
    split
    · exact ⟨⟨hloop.unslotted.alloc, hloop.unslotted.lt⟩, hloop.seqIndex, hloop.home⟩
    · exact hloop

theorem of_reach (hsub : cfg.subBatchSizes.length ≠ 0) (hstat : cfg.dynamicSubBatching = false)
    (h : Reachable cfg m) : StaticMaps cfg m := by
  refine h.invariant (fun m h0 => ?_) fun m op m' hI _ hs => ?_
  · refine ⟨@Unslotted.of_reach _ _ hsub hstat anyStep (.init h0), fun sources hsources i pad hi => ?_, fun hs => ?_⟩
    all_goals
      simp only [StreamMaps.Started, StreamMaps.init, hsub, hstat, if_false, Bool.false_eq_true] at h0
      obtain ⟨pads, hpads, rfl⟩ := Option.map_eq_some_iff.mp h0
    · have := (staticPads_spec _ _ _ hpads).1 sources hsources i pad hi
      rw [StreamMaps.seqIndex, TreeMap.getD_eq_getD_getElem?, this]
      rfl
    · simp [empty] at hs
  · cases hs
    exact hI.apply hsub hstat op

end StaticMaps

/-! ### Dynamic sub-batches -/

/-- Each frame that is dispatched keeps the maps in agreement, one after the
other. -/
def KeepsAll (cfg : TrackerConfig) : StreamMaps → List NvDsFrameMeta → Prop
  | _, [] => True
  | m, frame :: rest => KeepsIndex cfg m (.dispatchFrame frame) ∧
      KeepsAll cfg (m.apply cfg (.dispatchFrame frame)) rest

def KeepsAll.decidable (cfg : TrackerConfig) :
    ∀ (frames : List NvDsFrameMeta) (m : StreamMaps), Decidable (KeepsAll cfg m frames)
  | [], _ => inferInstanceAs (Decidable True)
  | _ :: rest, _ => @instDecidableAnd _ _ inferInstance (KeepsAll.decidable cfg rest _)

instance (m : StreamMaps) (frames : List NvDsFrameMeta) : Decidable (KeepsAll cfg m frames) :=
  KeepsAll.decidable cfg frames m

/-- The frames of the lists in the order in which they are dispatched. -/
def framesOf (lists : List FrameMap) : List NvDsFrameMeta := lists.flatMap fun l => l.toList.map Prod.snd

theorem splitFrames_maps : ∀ (rest : List (SurfaceStreamId × NvDsFrameMeta)) (m : StreamMaps)
    (subs : List FrameMap), (∀ e ∈ rest, e.1 = e.2.ssId) → ∃ frames, frames <+: rest.map Prod.snd ∧
      (m.splitFrames cfg rest subs).1 = m.applyAll cfg (frames.map .dispatchFrame) ∧
        ((m.splitFrames cfg rest subs).2.isSome → frames = rest.map Prod.snd)
  | [], m, subs, _ => ⟨[], List.prefix_refl _, rfl, fun _ => rfl⟩
  | (ssId, frame) :: rest, m, subs, hkeyed => by
    have hid : ssId = frame.ssId := hkeyed _ (List.mem_cons_self ..)
    rw [splitFrames]
    by_cases hok : (m.mapFrame cfg ssId frame.padIndex.toNat).2 = true
    · obtain ⟨frames, hpre, he, hall⟩ := splitFrames_maps rest (m.mapFrame cfg ssId frame.padIndex.toNat).1
        (subs.modify ((m.mapFrame cfg ssId frame.padIndex.toNat).1.ssidSubBatchMap.getD ssId 0)
          fun frames => frames.insert ssId frame) (fun e he => hkeyed e (List.mem_cons_of_mem _ he))
      refine ⟨frame :: frames, (List.cons_prefix_cons).mpr ⟨rfl, hpre⟩, ?_, ?_⟩
      · simp only [hok, if_true]
        rw [he, hid]
        rfl
      · simp only [hok, if_true]
        intro hsome
        rw [hall hsome]
        rfl
    · refine ⟨[frame], (List.cons_prefix_cons).mpr ⟨rfl, List.nil_prefix⟩, ?_, ?_⟩
      · simp only [hok]
        rw [hid]
        rfl
      · simp [hok]

/-- `dispatchSubBatches` dispatches the frames in order, up to the one that
finds no sub-batch. -/
theorem dispatch_maps : ∀ (lists : List FrameMap) (m : StreamMaps), (∀ l ∈ lists, WellKeyed l) →
    ∃ frames, frames <+: framesOf lists ∧
      (m.dispatch cfg lists).maps = m.applyAll cfg (frames.map .dispatchFrame)
  | [], m, _ => ⟨[], List.prefix_refl _, rfl⟩
  | l :: lists, m, hkeyed => by
    have hl : ∀ e ∈ l.toList, e.1 = e.2.ssId := fun e he =>
      hkeyed l (List.mem_cons_self ..) _ _ (TreeMap.mem_toList_iff_getElem?_eq_some.mp he)
    obtain ⟨frames, hpre, he, hall⟩ := @splitFrames_maps cfg l.toList m
      (List.replicate cfg.subBatchSizes.length ∅) hl
    rw [dispatch]
    generalize m.splitFrames cfg l.toList (List.replicate cfg.subBatchSizes.length ∅) = r at he hall ⊢
    obtain ⟨m₁, subs⟩ := r
    rw [framesOf, List.flatMap_cons]
    cases subs with
    | none => exact ⟨frames, hpre.trans (List.prefix_append ..), he⟩
    | some subs =>
      obtain ⟨frames', hpre', he'⟩ := dispatch_maps lists m₁
        fun l' hl' => hkeyed l' (List.mem_cons_of_mem _ hl')
      have hfull := hall rfl
      refine ⟨frames ++ frames', ?_, ?_⟩
      · rw [hfull]
        exact (List.prefix_append_right_inj _).mpr hpre'
      · rw [List.map_append, applyAll_append, ← he]
        exact he'

theorem agree_applyAll (hd : Dynamic cfg) : ∀ {frames : List NvDsFrameMeta} {all : List NvDsFrameMeta}
    {m : StreamMaps}, frames <+: all → Slotted cfg m → Agree m → KeepsAll cfg m all →
      Agree (m.applyAll cfg (frames.map .dispatchFrame))
  | [], _, _, _, _, ha, _ => ha
  | frame :: frames, [], _, hpre, _, _, _ => absurd hpre (by simp)
  | frame :: frames, f :: all, m, hpre, hm, ha, hkeeps => by
    obtain ⟨rfl, hrest⟩ := (List.cons_prefix_cons).mp hpre
    exact agree_applyAll (m := m.apply cfg (.dispatchFrame frame)) hd hrest (hm.apply hd _) ((agree_apply_iff hd hm ha _).mpr hkeeps.1) hkeeps.2

theorem agree_dispatch (hd : Dynamic cfg) {lists : List FrameMap} (hkeyed : ∀ l ∈ lists, WellKeyed l)
    (hm : Slotted cfg m) (ha : Agree m) (hkeeps : KeepsAll cfg m (framesOf lists)) :
    Agree (m.dispatch cfg lists).maps := by
  obtain ⟨frames, hpre, he⟩ := @dispatch_maps cfg lists m hkeyed
  rw [he]
  exact agree_applyAll hd hpre hm ha hkeeps

end Tracker
end DeepStream
