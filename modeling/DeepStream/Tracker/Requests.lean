/-
# The calls of the low-level library

What a call may hold: as many frames as its context has streams, with different
stream ids and different sequence indices below that number. The index belongs to
the pad, so that two surfaces of one pad in a call have the same; without
sub-batches a pad from the batch size on has index 0, like pad 0. With dynamic
sub-batches it also takes that the maps agree while a request waits. Under the
condition on the batches every call is well formed, in every mode and under any
interleaving.
-/
import DeepStream.Tracker.Barrier
import DeepStream.Tracker.OutputOrder
import DeepStream.Tracker.Sequence

namespace DeepStream
namespace Tracker

open Std StreamMaps

variable {cfg : TrackerConfig}

/-- What the low-level library is promised of a call. -/
structure LibCall.WellFormed (cfg : TrackerConfig) (call : LibCall) : Prop where
  length : call.frames.length ≤ cfg.maxStreams call.sbId
  streamIDs : (call.frames.map NvMOTFrame.streamID).Nodup
  seqIndices : (call.frames.map NvMOTFrame.seqIndex).Nodup
  lt : ∀ frame ∈ call.frames, frame.seqIndex < cfg.maxStreams call.sbId

theorem nodup_toList (l : FrameMap) : (l.toList.map Prod.fst).Nodup := by
  rw [TreeMap.map_fst_toList_eq_keys]
  exact l.nodup_keys

/-- It is enough that the indices are below the bound and tell the frames apart. -/
theorem wellFormed_of_injective {m : StreamMaps} {sbId : SubBatchId} {l : FrameMap}
    (hlt : ∀ e ∈ l.toList, m.seqIndex e.2.padIndex.toNat < cfg.maxStreams sbId)
    (hinj : ∀ e ∈ l.toList, ∀ e' ∈ l.toList,
      m.seqIndex e.2.padIndex.toNat = m.seqIndex e'.2.padIndex.toNat → e.1 = e'.1) :
    LibCall.WellFormed cfg ⟨sbId, l.toList.map m.frameOf⟩ := by
  have hids : ((l.toList.map m.frameOf).map NvMOTFrame.streamID).Nodup := by
    rw [List.map_map]
    exact nodup_toList l
  have hseq : ((l.toList.map m.frameOf).map NvMOTFrame.seqIndex).Nodup := by
    rw [List.map_map, List.nodup_map_iff_inj_on (List.Nodup.of_map _ (nodup_toList l))]
    intro e he e' he' heq
    have hkey := hinj e he e' he' heq
    have hval := TreeMap.mem_toList_iff_getElem?_eq_some.mp he
    rw [hkey, TreeMap.mem_toList_iff_getElem?_eq_some.mp he'] at hval
    exact Prod.ext hkey (Option.some.inj hval).symm
  have hbound : ∀ frame ∈ l.toList.map m.frameOf, frame.seqIndex < cfg.maxStreams sbId := by
    intro frame hframe
    obtain ⟨e, he, rfl⟩ := List.mem_map.mp hframe
    exact hlt e he
  refine ⟨?_, hids, hseq, hbound⟩
  -- distinct numbers below the bound
  rw [← List.length_map NvMOTFrame.seqIndex, ← List.toFinset_card_of_nodup hseq,
    ← Finset.card_range (cfg.maxStreams sbId)]
  refine Finset.card_le_card fun q hq => ?_
  obtain ⟨frame, hframe, rfl⟩ := List.mem_map.mp (List.mem_toFinset.mp hq)
  exact Finset.mem_range.mpr (hbound frame hframe)

/-! ### The condition on the batches -/

/-- No two frames of the list are of one pad. -/
def DistinctPads (l : FrameMap) : Prop := (l.toList.map fun e => e.2.padIndex.toNat).Nodup

/-- At most one frame of the list is of pad 0 or of a pad from the batch size on. -/
def OneFirst (cfg : TrackerConfig) (l : FrameMap) : Prop :=
  (l.toList.filter fun e => e.2.padIndex.toNat = 0 ∨ cfg.batchSize ≤ e.2.padIndex.toNat).length ≤ 1

/-- The batch is not longer than the batch size. In each of its lists, unless
the sub-batches are dynamic, the pads differ, and without sub-batches at most one
is 0 or not below the batch size. -/
def FramesOk (cfg : TrackerConfig) (frames : List (Option NvDsFrameMeta)) : Prop :=
  frames.length ≤ cfg.batchSize ∧ ∀ l ∈ queueFrames cfg frames,
    if cfg.subBatchSizes.length = 0 then DistinctPads l ∧ OneFirst cfg l
    else cfg.dynamicSubBatching = true ∨ DistinctPads l

instance (l : FrameMap) : Decidable (DistinctPads l) := inferInstanceAs (Decidable (List.Nodup _))

instance (l : FrameMap) : Decidable (OneFirst cfg l) := inferInstanceAs (Decidable (_ ≤ _))

instance (frames : List (Option NvDsFrameMeta)) : Decidable (FramesOk cfg frames) :=
  inferInstanceAs (Decidable (_ ∧ _))

/-- The condition on a section. Batches are submitted that the sequence indices
can tell apart; and with dynamic sub-batches a new stream gets the index that its
pad has, and a source is removed when no batch is pending and the maps stay in
agreement. -/
def Fits (cfg : TrackerConfig) (s : Sys) : Action → Prop
  | .submitInput frames _ => FramesOk cfg frames
  | .submitNext => ∀ p ∈ s.submit.converted?, cfg.subBatchSizes.length = 0 ∨ cfg.dynamicSubBatching = false ∨
      s.batchId ∈ s.pendingBatch ∨ KeepsAll cfg s.maps (framesOf (queueFrames cfg p.input.frames))
  | .removeSource sourceId flag => cfg.subBatchSizes.length = 0 ∨ cfg.dynamicSubBatching = false ∨
      s.pendingBatch.isEmpty = true ∧ KeepsIndex cfg s.maps (.removeSource sourceId flag)
  | _ => True

instance (s : Sys) : (a : Action) → Decidable (Fits cfg s a)
  | .submitInput frames _ => inferInstanceAs (Decidable (FramesOk cfg frames))
  | .submitNext => inferInstanceAs (Decidable (∀ p ∈ s.submit.converted?, _))
  | .removeSource _ _ => inferInstanceAs (Decidable (_ ∨ _ ∨ _))
  | .processBatch _ | .processSubBatch _ _ | .flushReqs | .flushCleared _ | .flushPush _ | .waitForCompletion
  | .trackerLibError => inferInstanceAs (Decidable True)

/-! ### The indices of one call -/

theorem distinctPads_iff {l : FrameMap} : DistinctPads l ↔
    ∀ (k k' : SurfaceStreamId) (frame frame' : NvDsFrameMeta), l[k]? = some frame → l[k']? = some frame' →
      frame.padIndex.toNat = frame'.padIndex.toNat → k = k' := by
  rw [DistinctPads, List.nodup_map_iff_inj_on (List.Nodup.of_map _ (nodup_toList l))]
  constructor
  · intro h k k' frame frame' hk hk' he
    have := h (k, frame) (TreeMap.mem_toList_iff_getElem?_eq_some.mpr hk) (k', frame')
      (TreeMap.mem_toList_iff_getElem?_eq_some.mpr hk') he
    exact congrArg Prod.fst this
  · rintro h ⟨k, frame⟩ hk ⟨k', frame'⟩ hk' he
    have hk := TreeMap.mem_toList_iff_getElem?_eq_some.mp hk
    have hk' := TreeMap.mem_toList_iff_getElem?_eq_some.mp hk'
    have hkk := h k k' frame frame' hk hk' he
    subst hkk
    rw [hk] at hk'
    exact congrArg _ (Option.some.inj hk')

theorem DistinctPads.eq {l : FrameMap} (h : DistinctPads l) {e e' : SurfaceStreamId × NvDsFrameMeta}
    (he : e ∈ l.toList) (he' : e' ∈ l.toList) (hpad : e.2.padIndex.toNat = e'.2.padIndex.toNat) :
    e.1 = e'.1 :=
  distinctPads_iff.mp h _ _ _ _ (TreeMap.mem_toList_iff_getElem?_eq_some.mp he)
    (TreeMap.mem_toList_iff_getElem?_eq_some.mp he') hpad

theorem OneFirst.eq {l : FrameMap} (h : OneFirst cfg l) {e e' : SurfaceStreamId × NvDsFrameMeta}
    (he : e ∈ l.toList) (he' : e' ∈ l.toList)
    (h0 : e.2.padIndex.toNat = 0 ∨ cfg.batchSize ≤ e.2.padIndex.toNat)
    (h0' : e'.2.padIndex.toNat = 0 ∨ cfg.batchSize ≤ e'.2.padIndex.toNat) : e.1 = e'.1 := by
  rw [OneFirst] at h
  generalize hfirst : l.toList.filter (fun e => decide (e.2.padIndex.toNat = 0 ∨
    cfg.batchSize ≤ e.2.padIndex.toNat)) = first at h
  have hmem : e ∈ first := hfirst ▸ List.mem_filter.mpr ⟨he, decide_eq_true h0⟩
  have hmem' : e' ∈ first := hfirst ▸ List.mem_filter.mpr ⟨he', decide_eq_true h0'⟩
  match first with
  | [] => cases hmem
  | [x] => rw [List.mem_singleton.mp hmem, List.mem_singleton.mp hmem']
  | _ :: _ :: _ => simp at h

section Modes

variable {m : StreamMaps} {l : FrameMap}

/-- A call of `processBatch`. -/
theorem wellFormed_plain (hsub : cfg.subBatchSizes.length = 0) (hm : Reachable cfg m)
    (hsize : l.size ≤ cfg.batchSize) (hpads : DistinctPads l) (hone : OneFirst cfg l) :
    LibCall.WellFormed cfg ⟨0, l.toList.map m.frameOf⟩ := by
  have hmax : cfg.maxStreams 0 = cfg.batchSize := by rw [TrackerConfig.maxStreams, if_pos hsub]
  refine wellFormed_of_injective (fun e he => ?_) fun e he e' he' heq => ?_
  · have hpos : 0 < cfg.batchSize := by
      refine Nat.lt_of_lt_of_le ?_ hsize
      rw [← TreeMap.length_toList]
      exact List.length_pos_of_mem he
    rw [seqIndex_plain hsub hm, hmax, plainIndex]
    split <;> assumption
  · rw [seqIndex_plain hsub hm, seqIndex_plain hsub hm, plainIndex, plainIndex] at heq
    split at heq <;> split at heq
    · exact hpads.eq he he' heq
    · exact hone.eq he he' (.inl heq) (.inr (by omega))
    · exact hone.eq he he' (.inr (by omega)) (.inl heq.symm)
    · exact hone.eq he he' (.inr (by omega)) (.inr (by omega))

/-- What is known of the request of a sub-batch while it waits. -/
structure Fitting (cfg : TrackerConfig) (m : StreamMaps) (sbId : SubBatchId) (l : FrameMap) : Prop where
  keyed : WellKeyed l
  static : cfg.dynamicSubBatching = false →
    DistinctPads l ∧ ∀ ssId ∈ l, home cfg (getStreamId ssId) = some sbId
  dynamic : cfg.dynamicSubBatching = true → ∀ ssId ∈ l, m.ssidSubBatchMap[ssId]? = some sbId

theorem mem_of_mem_toList {e : SurfaceStreamId × NvDsFrameMeta} (he : e ∈ l.toList) : e.1 ∈ l :=
  TreeMap.mem_iff_isSome_getElem?.mpr (by rw [TreeMap.mem_toList_iff_getElem?_eq_some.mp he]; rfl)

theorem WellKeyed.pad (h : WellKeyed l) {e : SurfaceStreamId × NvDsFrameMeta} (he : e ∈ l.toList) :
    getStreamId e.1 = e.2.padIndex.toNat := by
  rw [h _ _ (TreeMap.mem_toList_iff_getElem?_eq_some.mp he), getStreamId_ssId]

/-- A call for a static sub-batch. -/
theorem Fitting.wellFormed_static (hsub : cfg.subBatchSizes.length ≠ 0)
    (hstat : cfg.dynamicSubBatching = false) (hm : Reachable cfg m) {sbId : SubBatchId}
    (h : Fitting cfg m sbId l) : LibCall.WellFormed cfg ⟨sbId, l.toList.map m.frameOf⟩ := by
  obtain ⟨hpads, hhome⟩ := h.static hstat
  -- each frame has the place of its pad in the list of the sub-batch
  have hplace : ∀ e ∈ l.toList, ∃ sources i, cfg.subBatchesConfig[sbId]? = some sources ∧
      sources[i]? = some e.2.padIndex.toNat ∧ m.seqIndex e.2.padIndex.toNat = i := by
    intro e he
    have hh := hhome e.1 (mem_of_mem_toList he)
    rw [h.keyed.pad he] at hh
    obtain ⟨hlt, hmem, -⟩ := List.findIdx?_eq_some_iff_getElem.mp hh
    obtain ⟨i, hi⟩ := List.mem_iff_getElem?.mp (of_decide_eq_true hmem)
    refine ⟨_, i, List.getElem?_eq_getElem hlt, hi, ?_⟩
    exact (StaticMaps.of_reach hsub hstat hm).seqIndex _ (List.getElem_mem hlt) i _ hi
  refine wellFormed_of_injective (fun e he => ?_) fun e he e' he' heq => ?_
  · obtain ⟨sources, i, hsources, hi, hq⟩ := hplace e he
    have hsize : cfg.maxStreams sbId = sources.length := by
      rw [TrackerConfig.maxStreams, if_neg hsub, cfg.sizes_eq hstat, List.getD, List.getElem?_map, hsources]
      rfl
    rw [hq, hsize]
    exact (List.getElem?_eq_some_iff.mp hi).1
  · obtain ⟨sources, i, hsources, hi, hq⟩ := hplace e he
    obtain ⟨sources', i', hsources', hi', hq'⟩ := hplace e' he'
    rw [hsources] at hsources'
    cases hsources'
    rw [hq, hq'] at heq
    subst heq
    rw [hi] at hi'
    exact hpads.eq he he' (Option.some.inj hi')

/-- A call for a dynamic sub-batch. -/
theorem Fitting.wellFormed_dynamic (hd : Dynamic cfg) (hm : Slotted cfg m) (ha : Agree m)
    {sbId : SubBatchId} (h : Fitting cfg m sbId l) :
    LibCall.WellFormed cfg ⟨sbId, l.toList.map m.frameOf⟩ := by
  -- each frame has the index of the slot of its stream
  have hslot : ∀ e ∈ l.toList, ∃ q, m.slot sbId q = some (e.1, getStreamId e.1) ∧
      m.seqIndex e.2.padIndex.toNat = q := by
    intro e he
    obtain ⟨q, hq⟩ := hm.owns (h.dynamic hd.dynamic e.1 (mem_of_mem_toList he))
    exact ⟨q, hq, by rw [← h.keyed.pad he, ha _ _ _ _ hq]⟩
  refine wellFormed_of_injective (fun e he => ?_) fun e he e' he' heq => ?_
  · obtain ⟨q, hq, he⟩ := hslot e he
    rw [he, TrackerConfig.maxStreams, if_neg hd.sizes]
    exact hm.lt hq
  · obtain ⟨q, hq, hqe⟩ := hslot e he
    obtain ⟨q', hq', hqe'⟩ := hslot e' he'
    rw [hqe, hqe'] at heq
    subst heq
    rw [hq, Option.some.injEq, Prod.mk.injEq] at hq'
    exact hq'.1

end Modes

/-! ### What waits in the system -/

namespace Sys

variable {s s' : Sys} {a : Action}

/-- The batches that are submitted or wait for `processBatch`. -/
def inputs (s : Sys) : List ProcParams :=
  (match s.submit with
    | .converted p | .registered p => [p]
    | .idle => []) ++ s.held

/-- The requests that the thread of a sub-batch has not handed to the library. -/
def requests (s : Sys) (sbId : SubBatchId) : List DispatchReq :=
  (match s.worker sbId with
    | .popped req => [req]
    | _ => []) ++ s.reqQueue sbId

/-- What a section adds to the calls of the library. -/
def NewCall (cfg : TrackerConfig) (s : Sys) (call : LibCall) : Prop :=
  (cfg.subBatchSizes.length = 0 ∧ ∃ p ∈ s.inputs, ∃ l ∈ queueFrames cfg p.input.frames,
      call = ⟨0, l.toList.map s.maps.frameOf⟩) ∨
    cfg.subBatchSizes.length ≠ 0 ∧ ∃ sbId p l, .frames p l ∈ s.requests sbId ∧
      call = ⟨sbId, l.toList.map s.maps.frameOf⟩

/-- What a section does with what waits: it keeps the frames of the batches or
adds the batch submitted, keeps the requests or adds those of a dispatch, and
makes calls of what waits. -/
structure WaitingStep (cfg : TrackerConfig) (s : Sys) (a : Action) (s' : Sys) : Prop where
  inputs : ∀ p ∈ s'.inputs, (∃ q ∈ s.inputs, p.input = q.input) ∨
    ∃ result, a = .submitInput p.input.frames result
  requests : ∀ sbId p l, .frames p l ∈ s'.requests sbId → .frames p l ∈ s.requests sbId ∨
    ∃ q ∈ s.inputs, s'.maps = (s.maps.dispatch cfg (queueFrames cfg q.input.frames)).maps ∧
      (sbId, l) ∈ (s.maps.dispatch cfg (queueFrames cfg q.input.frames)).requests
  calls : ∀ call ∈ s'.libCalls, call ∈ s.libCalls ∨ NewCall cfg s call

/-- A section that leaves all of that alone. -/
theorem waitingStep_same (hi : s'.inputs = s.inputs) (hr : s'.requests = s.requests)
    (hc : s'.libCalls = s.libCalls) : WaitingStep cfg s a s' where
  inputs := fun p hp => .inl ⟨p, hi ▸ hp, rfl⟩
  requests := fun _ _ _ h => .inl (hr ▸ h)
  calls := fun _ h => .inl (hc ▸ h)

theorem submitInput_frames {frames : List (Option NvDsFrameMeta)} {result : ConvertResult}
    (hs : s.submitInput cfg frames result = some s') :
    ∀ p ∈ s'.inputs, p ∈ s.inputs ∨ p.input.frames = frames := by
  unfold submitInput at hs
  split at hs
  · rename_i hidle
    have hreject : ∀ free p, p ∈ ({ s with freeQueue := free }.reject).inputs → p ∈ s.inputs := by
      intro free p hp
      simpa [inputs, reject, hidle, held] using hp
    have hconvert : ∀ free buf p, p ∈ ({ s with freeQueue := free }.convert frames buf).inputs →
        p ∈ s.inputs ∨ p.input.frames = frames := by
      intro free buf p hp
      rcases List.mem_cons.mp hp with rfl | hp
      · exact .inr rfl
      · exact .inl (List.mem_append_right _ hp)
    repeat' split at hs
    all_goals first
      | (cases hs; done)
      | (cases hs; exact hconvert _ _)
      | (cases hs; exact fun p hp => .inl (hreject _ p hp))
  · cases hs

theorem waiting_submitInput {frames : List (Option NvDsFrameMeta)} {result : ConvertResult}
    (hs : s.submitInput cfg frames result = some s') : WaitingStep cfg s (.submitInput frames result) s' := by
  have hframes := submitInput_frames hs
  obtain ⟨-, pc, free, calls, rfl, -⟩ := submitInput_eq hs
  refine ⟨fun p hp => ?_, fun _ _ _ h => .inl h, fun _ h => .inl h⟩
  rcases hframes p hp with hp | rfl
  · exact .inl ⟨p, hp, rfl⟩
  · exact .inr ⟨result, rfl⟩

/-- The requests that a dispatch makes. -/
theorem mem_requestsFor {p : ProcParams} {rs : List SubBatchFrames} {sbId : SubBatchId} {q : ProcParams}
    {l : FrameMap} (h : .frames q l ∈ requestsFor p rs sbId) : (sbId, l) ∈ rs := by
  obtain ⟨r, hr, he⟩ := List.mem_map.mp h
  obtain ⟨hr, hsb⟩ := List.mem_filter.mp hr
  cases he
  exact of_decide_eq_true hsb ▸ hr

theorem waiting_submitNext (hs : s.submitNext cfg = some s') : WaitingStep cfg s .submitNext s' := by
  unfold submitNext at hs
  split at hs
  · cases hs
  · rename_i p hp
    have hreject : WaitingStep cfg s .submitNext s.reject := by
      exact ⟨fun q hq => .inl ⟨q, List.mem_append_right _ hq, rfl⟩, fun _ _ _ h => .inl h, fun _ h => .inl h⟩
    split at hs <;> cases hs
    · unfold register
      split
      · exact hreject
      · refine ⟨fun q hq => .inl ?_, fun _ _ _ h => .inl h, fun _ h => .inl h⟩
        rcases List.mem_cons.mp hq with rfl | hq
        · exact ⟨p, by simp [inputs, hp], rfl⟩
        · exact ⟨q, List.mem_append_right _ hq, rfl⟩
    · unfold dispatchSubBatches
      split
      · exact hreject
      · dsimp only
        have hin : p ∈ s.inputs := by simp [inputs, hp]
        split
        all_goals
          refine ⟨fun q hq => .inl ⟨q, List.mem_append_right _ hq, rfl⟩, fun sbId q l h => ?_, fun _ h => .inl h⟩
          have hadded : .frames q l ∈ s.requests sbId ++ requestsFor { p with batchId := s.batchId }
              (s.maps.dispatch cfg (queueFrames cfg p.input.frames)).requests sbId := by
            rw [requests, List.append_assoc]
            exact h
          exact (List.mem_append.mp hadded).imp id fun h => ⟨p, hin, rfl, mem_requestsFor h⟩
  · rename_i p hp
    cases hs
    refine ⟨fun q hq => .inl ⟨q, ?_, rfl⟩, fun _ _ _ h => .inl h, fun _ h => .inl h⟩
    simp only [inputs, held, hp, List.nil_append, ← List.append_assoc] at hq ⊢
    simp only [List.mem_append, List.mem_singleton] at hq ⊢
    tauto

theorem waiting_processBatch {objs : List TrackedObjs} (hsub : cfg.subBatchSizes.length = 0)
    (hs : s.processBatch cfg objs = some s') : WaitingStep cfg s a s' := by
  unfold processBatch at hs
  split at hs
  · rename_i hidle
    split at hs <;> cases hs
    rename_i p rest hq
    exact waitingStep_same (by simp [inputs, held, hidle, hq]) rfl rfl
  · rename_i p hp
    split at hs <;> cases hs
    · exact waitingStep_same (by simp [inputs, held, hp]) rfl rfl
    · refine ⟨fun q hq => .inl ⟨q, by simpa [inputs, held, hp] using hq, rfl⟩, fun _ _ _ h => .inl h,
        fun call h => ?_⟩
      rcases List.mem_append.mp h with h | h
      · exact .inl h
      · obtain ⟨l, hl, rfl⟩ := mem_libProcessLists cfg h
        exact .inr (.inl ⟨hsub, p, by simp [inputs, held, hp], l, hl, rfl⟩)
  · rename_i p hp
    have hdrop : ∀ q ∈ s.procQueue, q ∈ s.held := fun q hq => List.mem_append_right _ hq
    split at hs <;> cases hs
    all_goals
      refine ⟨fun q hq => .inl ⟨q, ?_, rfl⟩, fun _ _ _ h => .inl h, fun _ h => .inl h⟩
      rcases List.mem_append.mp hq with hq | hq
      · exact List.mem_append_left _ hq
      · exact List.mem_append_right _ (hdrop q (by simpa [held] using hq))
  · rename_i p hp
    cases hs
    exact waitingStep_same (by simp [inputs, held, hp]) rfl rfl
  · rename_i p hp
    unfold returnBuffer at hs
    split at hs <;> cases hs
    exact waitingStep_same (by simp [inputs, held, hp]) rfl rfl

theorem mem_requests_setWorker {t : Sys} {sbId sb : SubBatchId} {pc : WorkerPc} {req : DispatchReq}
    (h : req ∈ (t.setWorker sbId pc).requests sb) :
    (sb = sbId ∧ pc = .popped req) ∨ req ∈ t.reqQueue sb ∨ (sb ≠ sbId ∧ req ∈ t.requests sb) := by
  rcases List.mem_append.mp h with h | h
  · simp only [setWorker, Function.update_apply] at h
    split at h
    · rename_i req' hpc
      split at hpc
      · rename_i hsb
        exact .inl ⟨hsb, by rw [hpc, List.mem_singleton.mp h]⟩
      · rename_i hsb
        refine .inr (.inr ⟨hsb, List.mem_append_left _ ?_⟩)
        rw [hpc]
        exact h
    · cases h
  · exact .inr (.inl h)

theorem waiting_processSubBatch (hsub : cfg.subBatchSizes.length ≠ 0) {sbId : SubBatchId} {objs : TrackedObjs}
    (hs : s.processSubBatch cfg sbId objs = some s') : WaitingStep cfg s a s' := by
  -- a thread that goes on without a new request has fewer
  have hfewer : ∀ {t : Sys} {pc : WorkerPc}, (∀ req, pc ≠ .popped req) → t.worker = s.worker →
      t.reqQueue = s.reqQueue → ∀ {sb req}, req ∈ (t.setWorker sbId pc).requests sb → req ∈ s.requests sb := by
    intro t pc hpc hw hq sb req h
    rcases mem_requests_setWorker h with ⟨-, he⟩ | h | ⟨-, h⟩
    · exact absurd he (hpc req)
    · exact List.mem_append_right _ (hq ▸ h)
    · rwa [requests, hw, hq] at h
  unfold processSubBatch at hs
  split at hs
  · rename_i hidle
    split at hs <;> cases hs
    rename_i req rest hq
    refine ⟨fun p hp => .inl ⟨p, hp, rfl⟩, fun sb p l h => .inl ?_, fun _ h => .inl h⟩
    rcases mem_requests_setWorker h with ⟨rfl, he⟩ | h | ⟨hsb, h⟩
    · cases he
      exact List.mem_append_right _ (hq ▸ List.mem_cons_self ..)
    · refine List.mem_append_right _ ?_
      simp only [Function.update_apply] at h
      split at h
      · rename_i hsb
        rw [hsb, hq]
        exact List.mem_cons_of_mem _ h
      · exact h
    · simpa only [requests, Function.update_of_ne hsb] using h
  · cases hs
    exact ⟨fun p hp => .inl ⟨p, hp, rfl⟩, fun sb p l h => .inl (hfewer (by nofun) rfl rfl h), fun _ h => .inl h⟩
  · rename_i p frameMap hpc
    cases hs
    have hmem : .frames p frameMap ∈ s.requests sbId := by simp [requests, hpc]
    unfold processReq
    split
    · exact ⟨fun p hp => .inl ⟨p, hp, rfl⟩, fun sb p l h => .inl (hfewer (by nofun) rfl rfl h), fun _ h => .inl h⟩
    · refine ⟨fun p hp => .inl ⟨p, hp, rfl⟩, fun sb p l h => .inl (hfewer (by nofun) rfl rfl h), fun call h => ?_⟩
      rcases List.mem_append.mp h with h | h
      · exact .inl h
      · rw [List.mem_singleton.mp h]
        exact .inr (.inr ⟨hsub, sbId, p, frameMap, hmem, congrArg _ (fillMOTFrames_frames ..)⟩)
  · rename_i p hpc
    obtain ⟨t, ht, rfl⟩ := Option.map_eq_some_iff.mp hs
    obtain ⟨_, _, _, _, _, _, rfl⟩ := completeReq_eq ht
    exact ⟨fun p hp => .inl ⟨p, hp, rfl⟩, fun sb p l h => .inl (hfewer (by nofun) rfl rfl h), fun _ h => .inl h⟩

theorem waitingStep (hs : s.step cfg a = some s') : WaitingStep cfg s a s' := by
  cases a with
  | submitInput frames result => exact waiting_submitInput hs
  | submitNext => exact waiting_submitNext hs
  | processBatch objs =>
    simp only [step] at hs
    split at hs
    · rename_i hsub
      exact waiting_processBatch hsub hs
    · cases hs
  | processSubBatch sbId objs =>
    simp only [step] at hs
    split at hs
    · rename_i hlt
      exact waiting_processSubBatch (Nat.ne_of_gt (Nat.zero_lt_of_lt hlt)) hs
    · cases hs
  | removeSource sourceId flag =>
    cases hs
    refine ⟨fun p hp => .inl ⟨p, hp, rfl⟩, fun sb p l h => .inl ?_, fun _ h => .inl h⟩
    rw [requests, removeSource, ← List.append_assoc, List.mem_append] at h
    refine h.resolve_right fun h => ?_
    obtain ⟨e, -, he⟩ := List.mem_map.mp h
    cases he
  | flushReqs | trackerLibError =>
    cases hs
    exact waitingStep_same rfl rfl rfl
  | flushCleared i | flushPush i | waitForCompletion =>
    simp only [step] at hs
    repeat' split at hs
    all_goals first
      | (cases hs; done)
      | (cases hs; exact waitingStep_same rfl rfl rfl)

/-! ### The invariant -/

/-- The maps agree, the batches can be told apart, the requests fit and every
call was well formed. -/
structure RequestsInv (cfg : TrackerConfig) (s : Sys) : Prop where
  agree : Dynamic cfg → Agree s.maps
  inputs : ∀ p ∈ s.inputs, FramesOk cfg p.input.frames
  requests : cfg.subBatchSizes.length ≠ 0 → ∀ sbId p l, .frames p l ∈ s.requests sbId →
    Fitting cfg s.maps sbId l
  calls : ∀ call ∈ s.libCalls, call.WellFormed cfg

theorem mem_jobs_of_request {sbId : SubBatchId} {p : ProcParams} {l : FrameMap}
    (h : .frames p l ∈ s.requests sbId) : p ∈ s.jobs sbId := by
  rw [jobs, List.mem_append]
  rcases List.mem_append.mp h with h | h
  · split at h
    · rename_i req hpc
      rw [hpc, ← List.mem_singleton.mp h]
      exact .inl (List.mem_singleton_self _)
    · cases h
  · exact .inr (List.mem_filterMap.mpr ⟨_, h, rfl⟩)

namespace RequestsInv

variable {ok : Sys → Action → Prop}

theorem agree_step (h : RequestsInv cfg s) (hr : Reach (Sys.step cfg) ok (Started cfg) s) (hok : Fits cfg s a)
    (hs : s.step cfg a = some s') (hd : Dynamic cfg) : Agree s'.maps := by
  have hslotted : Slotted cfg s.maps := Slotted.of_reach hd (maps_reach hr)
  have hdyn : cfg.dynamicSubBatching ≠ false := by simp [hd.dynamic]
  cases mapsStep hs with
  | dispatch p ha hsub hp hfree eq =>
    subst ha
    have hkeeps := ((hok p (by rw [hp]; rfl)).resolve_left hsub |>.resolve_left hdyn).resolve_left hfree
    rw [eq]
    exact agree_dispatch hd (fun l hl => (mem_queueFrames hl).2.2.1) hslotted (h.agree hd) hkeeps
  | remove sourceId flag ha eq =>
    subst ha
    obtain ⟨-, hkeeps⟩ := (hok.resolve_left hd.sizes).resolve_left hdyn
    rw [eq]
    exact (agree_apply_iff hd hslotted (h.agree hd) (.removeSource sourceId flag)).mpr hkeeps
  | read ops hops eq =>
    have hsame := @sameIndices_applyAll cfg ops s.maps hops
    rw [eq]
    intro sb q k p hq
    rw [hsame.seqIndex]
    exact h.agree hd sb q k p (hsame.slot sb q ▸ hq)

/-- A request that waits stays fitting: its streams keep their sub-batches. -/
theorem fitting_step (hsub : cfg.subBatchSizes.length ≠ 0) (h : RequestsInv cfg s)
    (hr : Reach (Sys.step cfg) ok (Started cfg) s) (hok : Fits cfg s a) (hs : s.step cfg a = some s')
    {sbId : SubBatchId} {p : ProcParams} {l : FrameMap} (hmem : .frames p l ∈ s.requests sbId) :
    Fitting cfg s'.maps sbId l := by
  have hfit := h.requests hsub sbId p l hmem
  refine ⟨hfit.keyed, hfit.static, fun hdyn ssId hss => ?_⟩
  have hold := hfit.dynamic hdyn ssId hss
  cases mapsStep hs with
  | dispatch q ha hsub hq hfree eq =>
    rw [eq]
    exact (dispatch_spec hsub _ s.maps (fun l hl => (mem_queueFrames hl).2.2.1) (maps_reach hr)).2.1 hold
  | remove sourceId flag ha eq =>
    -- nothing is pending when a source is removed
    subst ha
    obtain ⟨hempty, -⟩ := (hok.resolve_left hsub).resolve_left (by simp [hdyn])
    obtain ⟨pb, hpb, -⟩ := (SubInv.of_reach hsub hr).owner (mem_jobs_of_request hmem)
    rw [TreeMap.getElem?_of_isEmpty hempty] at hpb
    cases hpb
  | read ops hops eq => rw [eq, (sameIndices_applyAll ops s.maps hops).ssids, hold]

/-- The requests of a dispatch fit. -/
theorem fitting_dispatch (hsub : cfg.subBatchSizes.length ≠ 0) (hm : Reachable cfg s.maps)
    {frames : List (Option NvDsFrameMeta)} (hframes : FramesOk cfg frames)
    {r : SubBatchFrames} (hmem : r ∈ (s.maps.dispatch cfg (queueFrames cfg frames)).requests) :
    Fitting cfg (s.maps.dispatch cfg (queueFrames cfg frames)).maps r.1 r.2 := by
  obtain ⟨hreach, -, hrequests, -⟩ := dispatch_spec hsub (queueFrames cfg frames) s.maps
    (fun l hl => (mem_queueFrames hl).2.2.1) hm
  obtain ⟨hlt, hmapped, l, hl, hsubset⟩ := hrequests r hmem
  refine ⟨fun k f hk => (mem_queueFrames hl).2.2.1 k f (hsubset k f hk), fun hstat => ⟨?_, fun k hk => ?_⟩,
    fun _ => hmapped⟩
  · have hpads := hframes.2 l hl
    rw [if_neg hsub, or_iff_right (by rw [hstat]; nofun), distinctPads_iff] at hpads
    exact distinctPads_iff.mpr fun k k' f f' hk hk' => hpads k k' f f' (hsubset k f hk) (hsubset k' f' hk')
  · exact (StaticMaps.of_reach hsub hstat hreach).home (hmapped k hk)

theorem step (h : RequestsInv cfg s) (hr : Reach (Sys.step cfg) ok (Started cfg) s) (hok : Fits cfg s a)
    (hs : s.step cfg a = some s') : RequestsInv cfg s' := by
  have hstep := waitingStep hs
  have hm := maps_reach hr
  refine ⟨h.agree_step hr hok hs, fun p hp => ?_, fun hsub sbId p l hmem => ?_, fun call hcall => ?_⟩
  · rcases hstep.inputs p hp with ⟨q, hq, he⟩ | ⟨result, ha⟩
    · exact he ▸ h.inputs q hq
    · subst ha
      exact hok
  · rcases hstep.requests sbId p l hmem with hmem | ⟨q, hq, he, hmem⟩
    · exact h.fitting_step hsub hr hok hs hmem
    · rw [he]
      exact fitting_dispatch hsub hm (h.inputs q hq) hmem
  · rcases hstep.calls call hcall with hcall | ⟨hsub, p, hp, l, hl, rfl⟩ | ⟨hsub, sbId, p, l, hmem, rfl⟩
    · exact h.calls call hcall
    · obtain ⟨hlength, hlists⟩ := h.inputs p hp
      have hpads := hlists l hl
      rw [if_pos hsub] at hpads
      exact wellFormed_plain hsub hm ((mem_queueFrames hl).2.1.trans hlength) hpads.1 hpads.2
    · have hfit := h.requests hsub sbId p l hmem
      cases hdyn : cfg.dynamicSubBatching with
      | true => exact hfit.wellFormed_dynamic ⟨hsub, hdyn⟩ (Slotted.of_reach ⟨hsub, hdyn⟩ hm) (h.agree ⟨hsub, hdyn⟩)
      | false => exact hfit.wellFormed_static hsub hdyn hm

theorem started (h : Started cfg s) : RequestsInv cfg s := by
  obtain ⟨m, hm, rfl⟩ := Option.map_eq_some_iff.mp h
  refine ⟨fun hd => ?_, by simp [Sys.inputs, held], by simp [Sys.requests], by simp⟩
  have hempty : m = empty := StreamMaps.Started.eq hd hm
  intro sb q k p hq
  simp [hempty, slot_empty] at hq

theorem of_reach (h : Reach (Sys.step cfg) (Fits cfg) (Started cfg) s) : RequestsInv cfg s := by
  induction h with
  | init h => exact started h
  | step hr hok hs ih => exact ih.step hr hok hs

end RequestsInv

/-- **When the calls are well formed**: in a run whose sections all meet the
condition, every call that the low-level library ever got. -/
theorem wellFormed_run (h : Reach (step cfg) (Fits cfg) (Started cfg) s) :
    ∀ call ∈ s.libCalls, call.WellFormed cfg :=
  (RequestsInv.of_reach h).calls

/-- Two streams in one dynamic sub-batch. -/
theorem wellFormed_run_twoPads :
    let cfg := dynamicConfig [2]
    ∀ call ∈ ((exec (step cfg) (Fits cfg) (start cfg (by decide))
      ([.submitInput [some (.of 0 0 0), some (.of 1 0 0)] .ok, .submitNext] ++
        List.replicate 3 (.processSubBatch 0 []))).get (by decide +kernel)).libCalls, call.WellFormed cfg :=
  wellFormed_run (Reach.get_exec (started_start _ _) _)

/-- Without sub-batches and with the batch size 2, frames of pads 0 and 5 come in
one batch: both have the sequence index 0. -/
theorem wellFormed_fails : ∃ s, Reach (step (plainConfig 2)) anyStep (Started (plainConfig 2)) s ∧
    ∃ call ∈ s.libCalls, ¬ call.WellFormed (plainConfig 2) := by
  refine ⟨_, Reach.get_exec (started_start _ (by decide))
    (show (exec (step (plainConfig 2)) anyStep _ ([.submitInput [some (.of 0 0 0), some (.of 5 0 0)] .ok,
      .submitNext, .submitNext, .processBatch [], .processBatch []])).isSome by decide +kernel),
    ⟨0, [⟨0, 0, 0⟩, ⟨5 <<< 32, 0, 0⟩]⟩, by decide +kernel, fun h => ?_⟩
  exact absurd h.seqIndices (by decide)

end Sys
end Tracker
end DeepStream
