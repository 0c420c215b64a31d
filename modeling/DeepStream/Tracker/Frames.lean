/-
# The frames of a batch and the requests made of them

What `queueFrames` and the dispatch to the sub-batches guarantee: no list of
frames is empty and none is longer than the batch, every frame stands under its
own surface stream id, a dispatch that succeeds makes a request as soon as the
batch has a frame to track, and every request is for a sub-batch that exists and
holds streams of that sub-batch only. The maps of the streams change by the
operations of `StreamOp` alone.
-/
import DeepStream.Tracker.Removal
import DeepStream.Tracker.Batches

namespace DeepStream
namespace Tracker

open Std

/-! ### The lists of frames -/

/-- Every frame of a list stands under its own id. -/
def WellKeyed (frameMap : FrameMap) : Prop :=
  ∀ (ssId : SurfaceStreamId) (frame : NvDsFrameMeta), frameMap[ssId]? = some frame → ssId = frame.ssId

/-- What holds of the lists after some frames. -/
structure Queued (frames : List NvDsFrameMeta) (st : TreeMap SurfaceStreamId ℕ × List FrameMap) : Prop where
  count : ∀ ssId, st.1.getD ssId 0 ≤ st.2.length
  keyed : ∀ l ∈ st.2, ∀ (ssId : SurfaceStreamId) (frame : NvDsFrameMeta),
    l[ssId]? = some frame → ssId = frame.ssId ∧ frame ∈ frames
  nonempty : ∀ l ∈ st.2, l.size ≠ 0
  size : ∀ l ∈ st.2, l.size ≤ frames.length

section Queue

variable {st : TreeMap SurfaceStreamId ℕ × List FrameMap} {frame : NvDsFrameMeta}

/-- A list after one more frame is an old one, or one that got the frame. -/
theorem mem_queueFrame (hc : st.1.getD frame.ssId 0 ≤ st.2.length) {l : FrameMap}
    (hl : l ∈ (queueFrame st frame).2) :
    l ∈ st.2 ∨ ∃ old, (old = ∅ ∨ old ∈ st.2) ∧ l = old.insert frame.ssId frame := by
  obtain ⟨j, hj⟩ := List.mem_iff_getElem?.mp hl
  simp only [queueFrame, List.getElem?_modify] at hj
  generalize hcount : st.1.getD frame.ssId 0 = count at hc hj
  obtain ⟨old, hold, rfl⟩ := Option.map_eq_some_iff.mp hj
  have hcase : old ∈ st.2 ∨ old = ∅ ∧ j = count := by
    rw [List.getElem?_append] at hold
    split at hold
    · exact .inl (List.mem_of_getElem? hold)
    · rename_i hge
      obtain ⟨hlt, he⟩ := List.getElem?_eq_some_iff.mp hold
      rw [List.length_replicate] at hlt
      rw [List.getElem_replicate] at he
      exact .inr ⟨he.symm, by omega⟩
  by_cases hjc : count = j
  · refine .inr ⟨old, ?_, by simp [hjc]⟩
    rcases hcase with h | h
    · exact .inr h
    · exact .inl h.1
  · rcases hcase with h | h
    · exact .inl (by simpa [hjc] using h)
    · exact absurd h.2.symm hjc

theorem length_queueFrame : (queueFrame st frame).2.length =
    max st.2.length (st.1.getD frame.ssId 0 + 1) := by
  simp only [queueFrame, List.length_modify, List.length_append, List.length_replicate]
  omega

theorem Queued.step {frames : List NvDsFrameMeta} (h : Queued frames st) :
    Queued (frames ++ [frame]) (queueFrame st frame) where
  count := by
    intro ssId
    rw [length_queueFrame, queueFrame, TreeMap.getD_insert]
    have := h.count ssId
    split <;> omega
  keyed := by
    intro l hl ssId f hf
    rcases mem_queueFrame (h.count _) hl with hl | ⟨old, hold, rfl⟩
    · exact ⟨(h.keyed l hl ssId f hf).1, List.mem_append_left _ (h.keyed l hl ssId f hf).2⟩
    · rw [Table.getElem?_insert] at hf
      split at hf
      · cases hf
        exact ⟨‹_›, by simp⟩
      · rcases hold with rfl | hold
        · simp at hf
        · exact ⟨(h.keyed old hold ssId f hf).1, List.mem_append_left _ (h.keyed old hold ssId f hf).2⟩
  nonempty := by
    intro l hl
    rcases mem_queueFrame (h.count _) hl with hl | ⟨old, hold, rfl⟩
    · exact h.nonempty l hl
    · exact fun h0 => Table.notMem_of_size_eq_zero h0 _ TreeMap.mem_insert_self
  size := by
    intro l hl
    rw [List.length_append, List.length_singleton]
    rcases mem_queueFrame (h.count _) hl with hl | ⟨old, hold, rfl⟩
    · exact (h.size l hl).trans (Nat.le_succ _)
    · refine TreeMap.size_insert_le.trans (Nat.succ_le_succ ?_)
      rcases hold with rfl | hold
      · simp
      · exact h.size old hold

end Queue

theorem queued_foldl : ∀ (l frames : List NvDsFrameMeta) (st : TreeMap SurfaceStreamId ℕ × List FrameMap),
    Queued frames st → Queued (frames ++ l) (l.foldl queueFrame st)
  | [], frames, st, h => by simpa using h
  | f :: l, frames, st, h => by
    have := queued_foldl l (frames ++ [f]) _ h.step
    rwa [List.append_assoc, List.singleton_append] at this

variable {cfg : TrackerConfig} {frames : List (Option NvDsFrameMeta)}

theorem queued_queueFrames : Queued (frames.filterMap cfg.selects)
    ((frames.filterMap cfg.selects).foldl queueFrame (∅, [])) :=
  queued_foldl _ [] _ ⟨by simp, by simp, by simp, by simp⟩

theorem mem_queueFrames {l : FrameMap} (hl : l ∈ queueFrames cfg frames) :
    l.size ≠ 0 ∧ l.size ≤ frames.length ∧ WellKeyed l ∧
      ∀ (ssId : SurfaceStreamId) (frame : NvDsFrameMeta),
        l[ssId]? = some frame → frame ∈ frames.filterMap cfg.selects :=
  ⟨queued_queueFrames.nonempty l hl, (queued_queueFrames.size l hl).trans (List.length_filterMap_le ..),
    fun ssId frame h => (queued_queueFrames.keyed l hl ssId frame h).1,
    fun ssId frame h => (queued_queueFrames.keyed l hl ssId frame h).2⟩

theorem foldl_queueFrame_ne_nil : ∀ (l : List NvDsFrameMeta) (st : TreeMap SurfaceStreamId ℕ × List FrameMap),
    st.2 ≠ [] → (l.foldl queueFrame st).2 ≠ []
  | [], _, h => h
  | f :: l, st, _ => foldl_queueFrame_ne_nil l _ fun h => by
    have := @length_queueFrame st f
    rw [h, List.length_nil] at this
    omega

/-- There is a list as soon as a frame passes the filter. -/
theorem queueFrames_eq_nil_iff : queueFrames cfg frames = [] ↔ frames.filterMap cfg.selects = [] := by
  unfold queueFrames
  cases hsel : frames.filterMap cfg.selects with
  | nil => simp
  | cons f l =>
    refine iff_of_false ?_ (by simp)
    refine foldl_queueFrame_ne_nil l _ fun h => ?_
    have := @length_queueFrame (∅, []) f
    rw [h, List.length_nil] at this
    omega

/-! ### Dispatch -/

/-- An operation that a call of the low-level library makes. -/
def StreamOp.Reads : StreamOp → Prop
  | .fillMOTFrame _ | .objectIdMapping _ _ => True
  | .dispatchFrame _ | .removeSource _ _ => False

namespace StreamMaps

/-- The maps after some operations. -/
def Reachable (cfg : TrackerConfig) (m : StreamMaps) : Prop := Reach (step cfg) anyStep (Started cfg) m

variable {m m' : StreamMaps}

theorem Reachable.apply (h : Reachable cfg m) (op : StreamOp) : Reachable cfg (m.apply cfg op) :=
  Reach.step h trivial rfl

/-- Every stream with a sub-batch has one that exists. -/
theorem Reachable.lt (h : Reachable cfg m) (hsub : cfg.subBatchSizes.length ≠ 0) {ssId : SurfaceStreamId}
    {sbId : SubBatchId} (hs : m.ssidSubBatchMap[ssId]? = some sbId) : sbId < cfg.subBatchSizes.length := by
  cases hdyn : cfg.dynamicSubBatching with
  | true =>
    have hm := Slotted.of_reach ⟨hsub, hdyn⟩ h
    obtain ⟨q, hq⟩ := hm.owns hs
    exact hm.subBatch_lt hq
  | false => exact (Unslotted.of_reach hsub hdyn h).lt hs

/-- Mapping a stream keeps the sub-batches of the others. -/
theorem mapFrame_ssids (ssId : SurfaceStreamId) (padIndex : ℕ) {k : SurfaceStreamId} {sbId : SubBatchId}
    (hk : m.ssidSubBatchMap[k]? = some sbId) :
    (m.mapFrame cfg ssId padIndex).1.ssidSubBatchMap[k]? = some sbId := by
  unfold mapFrame
  split
  · exact hk
  · rename_i hnew
    have hne : k ≠ ssId := by
      rintro rfl
      exact hnew (TreeMap.mem_iff_isSome_getElem?.mpr (by rw [hk]; rfl))
    cases hdyn : cfg.dynamicSubBatching with
    | true =>
      have hcase := mapStreamToSubBatch_cases hdyn m ssId padIndex
      generalize m.mapStreamToSubBatch cfg ssId padIndex = r at hcase ⊢
      generalize m.freeSlot cfg = free at hcase
      cases hcase with
      | full hs => rw [hs.ssids, hk]
      | given hs => rw [allocate, Table.getElem?_insert, if_neg hne, hs.ssids, hk]
    | false =>
      simp only [mapStreamToSubBatch, hdyn, Bool.false_eq_true, if_false]
      split
      · exact hk
      · rw [Table.getElem?_insert, if_neg hne, hk]

/-- A stream that was mapped has a sub-batch. -/
theorem mem_mapFrame {ssId : SurfaceStreamId} {padIndex : ℕ} (hok : (m.mapFrame cfg ssId padIndex).2 = true) :
    ssId ∈ (m.mapFrame cfg ssId padIndex).1.ssidSubBatchMap := by
  by_cases hmem : ssId ∈ m.ssidSubBatchMap
  · rwa [mapFrame, if_pos hmem]
  · rw [mapFrame, if_neg hmem] at hok ⊢
    cases hdyn : cfg.dynamicSubBatching with
    | true =>
      have hcase := mapStreamToSubBatch_cases hdyn m ssId padIndex
      generalize m.mapStreamToSubBatch cfg ssId padIndex = r at hcase hok ⊢
      generalize m.freeSlot cfg = free at hcase
      cases hcase with
      | full _ => cases hok
      | given _ => exact TreeMap.mem_insert_self
    | false =>
      simp only [mapStreamToSubBatch, hdyn, Bool.false_eq_true, if_false] at hok ⊢
      split at hok
      · cases hok
      · exact TreeMap.mem_insert_self

theorem size_insert_ne_zero (l : FrameMap) (ssId : SurfaceStreamId) (frame : NvDsFrameMeta) :
    (l.insert ssId frame).size ≠ 0 :=
  fun h => Table.notMem_of_size_eq_zero h _ TreeMap.mem_insert_self

/-- Each sub-batch list holds frames of `all` whose streams have that sub-batch. -/
structure Split (cfg : TrackerConfig) (m : StreamMaps) (all : List (SurfaceStreamId × NvDsFrameMeta))
    (subBatchList : List FrameMap) : Prop where
  length : subBatchList.length = cfg.subBatchSizes.length
  mem : ∀ {sbId sub ssId frame}, subBatchList[sbId]? = some sub → sub[ssId]? = some frame →
    m.ssidSubBatchMap[ssId]? = some sbId ∧ (ssId, frame) ∈ all

/-- What the split of a list of frames guarantees. -/
theorem splitFrames_spec (hsub : cfg.subBatchSizes.length ≠ 0) {all : List (SurfaceStreamId × NvDsFrameMeta)}
    (hkeyed : ∀ e ∈ all, e.1 = e.2.ssId) : ∀ (rest : List (SurfaceStreamId × NvDsFrameMeta))
      (m : StreamMaps) (subs : List FrameMap), (∀ e ∈ rest, e ∈ all) → Reachable cfg m →
      Split cfg m all subs →
        Reachable cfg (m.splitFrames cfg rest subs).1 ∧
        (∀ {k : SurfaceStreamId} {sbId : SubBatchId}, m.ssidSubBatchMap[k]? = some sbId →
          (m.splitFrames cfg rest subs).1.ssidSubBatchMap[k]? = some sbId) ∧
        ∀ subs', (m.splitFrames cfg rest subs).2 = some subs' →
          Split cfg (m.splitFrames cfg rest subs).1 all subs' ∧
            ((∃ sub ∈ subs, sub.size ≠ 0) ∨ rest ≠ [] → ∃ sub ∈ subs', sub.size ≠ 0)
  | [], m, subs, _, hm, h => by
    refine ⟨hm, fun hk => hk, fun subs' he => ?_⟩
    rw [splitFrames, Option.some.injEq] at he
    subst he
    exact ⟨h, fun hne => hne.resolve_right (fun hn => hn rfl)⟩
  | (ssId, frame) :: rest, m, subs, hall, hm, h => by
    have hid : ssId = frame.ssId := hkeyed _ (hall _ (List.mem_cons_self ..))
    have hm₁ : Reachable cfg (m.mapFrame cfg ssId frame.padIndex.toNat).1 := by
      rw [hid]
      exact hm.apply (.dispatchFrame frame)
    have hmono := fun {k sb} => @mapFrame_ssids cfg m ssId frame.padIndex.toNat k sb
    rw [splitFrames]
    generalize hr : m.mapFrame cfg ssId frame.padIndex.toNat = r at hm₁ hmono ⊢
    by_cases hok : r.2 = true
    · have hmem : ssId ∈ r.1.ssidSubBatchMap := hr ▸ mem_mapFrame (by rw [hr]; exact hok)
      obtain ⟨sb, hsb⟩ := Option.isSome_iff_exists.mp (TreeMap.mem_iff_isSome_getElem?.mp hmem)
      have hgetD : r.1.ssidSubBatchMap.getD ssId 0 = sb := by
        rw [TreeMap.getD_eq_getD_getElem?, hsb, Option.getD_some]
      rw [if_pos hok, hgetD]
      have hsplit : Split cfg r.1 all (subs.modify sb fun frames => frames.insert ssId frame) := by
        refine ⟨(List.length_modify ..).trans h.length, fun {i sub k f} hi hk => ?_⟩
        rw [List.getElem?_modify] at hi
        obtain ⟨old, hold, rfl⟩ := Option.map_eq_some_iff.mp hi
        split at hk
        · rename_i he
          subst he
          rw [Table.getElem?_insert] at hk
          split at hk
          · rename_i hks
            cases hk
            exact ⟨hks ▸ hsb, hks ▸ hall _ (List.mem_cons_self ..)⟩
          · exact ⟨hmono (h.mem hold hk).1, (h.mem hold hk).2⟩
        · exact ⟨hmono (h.mem hold hk).1, (h.mem hold hk).2⟩
      obtain ⟨hreach, hmono', hspec⟩ := splitFrames_spec hsub hkeyed rest r.1 _
        (fun e he => hall e (List.mem_cons_of_mem _ he)) hm₁ hsplit
      refine ⟨hreach, fun hk => hmono' (hmono hk), fun subs' hs => ?_⟩
      obtain ⟨hsplit', hne⟩ := hspec subs' hs
      refine ⟨hsplit', fun _ => hne (.inl ?_)⟩
      have hlt : sb < subs.length := h.length ▸ hm₁.lt hsub hsb
      refine ⟨subs[sb].insert ssId frame, ?_, size_insert_ne_zero _ _ _⟩
      exact List.mem_of_getElem? (i := sb) (by rw [List.getElem?_modify]; simp [hlt])
    · rw [if_neg hok]
      exact ⟨hm₁, hmono, nofun⟩

/-- What a dispatch guarantees of a request: it is for a sub-batch that exists
and has frames of one list, whose streams have that sub-batch. -/
structure RequestOk (cfg : TrackerConfig) (m : StreamMaps) (lists : List FrameMap) (r : SubBatchFrames) :
    Prop where
  lt : r.1 < cfg.subBatchSizes.length
  mapped : ∀ ssId ∈ r.2, m.ssidSubBatchMap[ssId]? = some r.1
  frames : ∃ l ∈ lists, ∀ (ssId : SurfaceStreamId) (frame : NvDsFrameMeta),
    r.2[ssId]? = some frame → l[ssId]? = some frame

theorem mem_requestsOf {subs : List FrameMap} {r : SubBatchFrames} :
    r ∈ requestsOf subs ↔ subs[r.1]? = some r.2 ∧ r.2.size ≠ 0 := by
  obtain ⟨sb, sub⟩ := r
  simp only [requestsOf, List.mem_filterMap, Prod.exists, List.mem_zipIdx_iff_getElem?]
  constructor
  · rintro ⟨sub', i, hi, he⟩
    split at he
    · cases he
    · cases he
      exact ⟨hi, ‹_›⟩
  · rintro ⟨hi, hne⟩
    exact ⟨sub, sb, hi, if_neg hne⟩

/-- What `dispatchSubBatches` guarantees. -/
theorem dispatch_spec (hsub : cfg.subBatchSizes.length ≠ 0) : ∀ (lists : List FrameMap) (m : StreamMaps),
    (∀ l ∈ lists, WellKeyed l) → Reachable cfg m →
      Reachable cfg (m.dispatch cfg lists).maps ∧
      (∀ {k : SurfaceStreamId} {sbId : SubBatchId}, m.ssidSubBatchMap[k]? = some sbId →
        (m.dispatch cfg lists).maps.ssidSubBatchMap[k]? = some sbId) ∧
      (∀ r ∈ (m.dispatch cfg lists).requests, RequestOk cfg (m.dispatch cfg lists).maps lists r) ∧
      ((m.dispatch cfg lists).ok = true → (∃ l ∈ lists, l.size ≠ 0) →
        (m.dispatch cfg lists).requests ≠ [])
  | [], m, _, hm => ⟨hm, fun hk => hk, nofun, by simp⟩
  | l :: lists, m, hkeyed, hm => by
    have hl : ∀ e ∈ l.toList, e.1 = e.2.ssId := fun e he =>
      hkeyed l (List.mem_cons_self ..) _ _ (TreeMap.mem_toList_iff_getElem?_eq_some.mp he)
    have hinit : Split cfg m l.toList (List.replicate cfg.subBatchSizes.length ∅) := by
      refine ⟨List.length_replicate, fun {sb sub k f} hsb hk => ?_⟩
      have hempty : sub = ∅ := (List.mem_replicate.mp (List.mem_of_getElem? hsb)).2
      simp [hempty] at hk
    obtain ⟨hreach, hmono, hspec⟩ := splitFrames_spec hsub hl l.toList m _ (fun e he => he) hm hinit
    rw [dispatch]
    generalize m.splitFrames cfg l.toList (List.replicate cfg.subBatchSizes.length ∅) = r at hreach hmono hspec ⊢
    obtain ⟨m₁, subs⟩ := r
    cases subs with
    | none => exact ⟨hreach, hmono, nofun, nofun⟩
    | some subs =>
      obtain ⟨hsplit, hne⟩ := hspec subs rfl
      obtain ⟨hreach', hmono', hreq, hne'⟩ := dispatch_spec hsub lists m₁
        (fun l' hl' => hkeyed l' (List.mem_cons_of_mem _ hl')) hreach
      refine ⟨hreach', fun hk => hmono' (hmono hk), fun r hr => ?_, fun hok hex => ?_⟩
      · rcases List.mem_append.mp hr with hr | hr
        · obtain ⟨hi, hsize⟩ := mem_requestsOf.mp hr
          have hlt := (List.getElem?_eq_some_iff.mp hi).1
          refine ⟨hsplit.length ▸ hlt, fun k hk => ?_, l, List.mem_cons_self .., fun k f hf => ?_⟩
          · obtain ⟨f, hf⟩ := Option.isSome_iff_exists.mp (TreeMap.mem_iff_isSome_getElem?.mp hk)
            exact hmono' (hsplit.mem hi hf).1
          · exact TreeMap.mem_toList_iff_getElem?_eq_some.mp (hsplit.mem hi hf).2
        · obtain ⟨hlt, hmapped, l', hl', hf⟩ := hreq r hr
          exact ⟨hlt, hmapped, l', List.mem_cons_of_mem _ hl', hf⟩
      · obtain ⟨l', hl', hsize⟩ := hex
        rcases List.mem_cons.mp hl' with rfl | hl'
        · have hlne : l'.toList ≠ [] := fun h => hsize (by rw [← TreeMap.length_toList, h]; rfl)
          obtain ⟨sub, hsub', hsz⟩ := hne (.inr hlne)
          obtain ⟨i, hi⟩ := List.mem_iff_getElem?.mp hsub'
          have hmem : (i, sub) ∈ requestsOf subs := mem_requestsOf.mpr ⟨hi, hsz⟩
          exact List.append_ne_nil_of_left_ne_nil (List.ne_nil_of_mem hmem) _
        · exact List.append_ne_nil_of_right_ne_nil _ (hne' hok ⟨l', hl', hsize⟩)

/-! ### The calls of the low-level library -/

/-- The maps after some operations, one after the other. -/
def applyAll (cfg : TrackerConfig) (m : StreamMaps) (ops : List StreamOp) : StreamMaps :=
  ops.foldl (apply cfg) m

theorem applyAll_append (ops ops' : List StreamOp) :
    m.applyAll cfg (ops ++ ops') = (m.applyAll cfg ops).applyAll cfg ops' :=
  List.foldl_append

theorem Reachable.applyAll (h : Reachable cfg m) (ops : List StreamOp) : Reachable cfg (m.applyAll cfg ops) :=
  List.foldlRecOn _ _ h fun _ hm op _ => hm.apply op

theorem fillMOTFrames_maps : ∀ (frames : List (SurfaceStreamId × NvDsFrameMeta)) (m : StreamMaps),
    (m.fillMOTFrames frames).1 = m.applyAll cfg (frames.map fun e => .fillMOTFrame e.2)
  | [], _ => rfl
  | (_, frame) :: rest, m => fillMOTFrames_maps rest (m.apply cfg (.fillMOTFrame frame))

theorem libProcess_maps (m : StreamMaps) (frameMap : FrameMap) (objs : TrackedObjs) :
    ∃ ops, (∀ op ∈ ops, StreamOp.Reads op) ∧ (m.libProcess frameMap objs).1 = m.applyAll cfg ops := by
  refine ⟨(frameMap.toList.map fun e => .fillMOTFrame e.2) ++
    (objs.filter fun o => o.1 ∈ frameMap).map fun o => .objectIdMapping o.2 o.1, fun op hop => ?_, ?_⟩
  · rcases List.mem_append.mp hop with hop | hop
    all_goals
      obtain ⟨e, -, rfl⟩ := List.mem_map.mp hop
      trivial
  · rw [applyAll_append, ← fillMOTFrames_maps, applyAll, List.foldl_map]
    rfl

theorem libProcessLists_maps : ∀ (lists : List FrameMap) (m : StreamMaps) (objs : List TrackedObjs),
    ∃ ops, (∀ op ∈ ops, StreamOp.Reads op) ∧ (m.libProcessLists lists objs).1 = m.applyAll cfg ops
  | [], m, _ => ⟨[], nofun, rfl⟩
  | l :: rest, m, objs => by
    obtain ⟨ops, hops, he⟩ := @libProcess_maps cfg m l (objs.headD [])
    obtain ⟨ops', hops', he'⟩ := libProcessLists_maps rest (m.libProcess l (objs.headD [])).1 objs.tail
    refine ⟨ops ++ ops', fun op hop => (List.mem_append.mp hop).elim (hops op) (hops' op), ?_⟩
    rw [applyAll_append, ← he, ← he']
    rfl

end StreamMaps

/-! ### The maps of the system -/

namespace Sys

open StreamMaps

variable {s s' : Sys} {a : Action}

/-- What a section does to the maps. -/
inductive MapsStep (cfg : TrackerConfig) (s : Sys) (a : Action) (s' : Sys) : Prop
  | dispatch (p : ProcParams) (ha : a = .submitNext) (hsub : cfg.subBatchSizes.length ≠ 0)
      (hsubmit : s.submit = .converted p) (hfree : s.batchId ∉ s.pendingBatch)
      (eq : s'.maps = (s.maps.dispatch cfg (queueFrames cfg p.input.frames)).maps)
  | remove (sourceId : StreamId) (flag : Bool) (ha : a = .removeSource sourceId flag)
      (eq : s'.maps = (s.maps.removeSource cfg sourceId flag).maps)
  | read (ops : List StreamOp) (hops : ∀ op ∈ ops, StreamOp.Reads op) (eq : s'.maps = s.maps.applyAll cfg ops)

theorem MapsStep.same (h : s'.maps = s.maps) : MapsStep cfg s a s' := .read [] nofun h

theorem mapsStep_submitNext (hs : s.submitNext cfg = some s') : MapsStep cfg s .submitNext s' := by
  unfold submitNext at hs
  split at hs
  · cases hs
  · rename_i p hp
    split at hs <;> cases hs
    · unfold register
      split <;> exact .same rfl
    · rename_i hsub
      unfold dispatchSubBatches
      split
      · exact .same rfl
      · rename_i hfree
        dsimp only
        split <;> exact .dispatch p rfl hsub hp hfree rfl
  · cases hs
    exact .same rfl

theorem mapsStep_processBatch {objs : List TrackedObjs} (hs : s.processBatch cfg objs = some s') :
    MapsStep cfg s a s' := by
  unfold processBatch at hs
  split at hs
  · split at hs <;> cases hs
    exact .same rfl
  · split at hs <;> cases hs
    · exact .same rfl
    · obtain ⟨ops, hops, he⟩ := @libProcessLists_maps cfg _ s.maps objs
      exact .read ops hops he
  · split at hs <;> cases hs <;> exact .same rfl
  · cases hs
    exact .same rfl
  · unfold returnBuffer at hs
    split at hs <;> cases hs
    exact .same rfl

theorem mapsStep_processSubBatch {sbId : SubBatchId} {objs : TrackedObjs}
    (hs : s.processSubBatch cfg sbId objs = some s') : MapsStep cfg s a s' := by
  unfold processSubBatch at hs
  split at hs
  · split at hs <;> cases hs
    exact .same rfl
  · cases hs
    exact .same rfl
  · rename_i p frameMap hpc
    cases hs
    unfold processReq
    split
    · exact .same rfl
    · obtain ⟨ops, hops, he⟩ := @libProcess_maps cfg s.maps frameMap objs
      exact .read ops hops he
  · obtain ⟨t, ht, rfl⟩ := Option.map_eq_some_iff.mp hs
    obtain ⟨_, _, _, _, _, _, rfl⟩ := completeReq_eq ht
    exact .same rfl

theorem mapsStep (hs : s.step cfg a = some s') : MapsStep cfg s a s' := by
  cases a with
  | submitInput frames result =>
    obtain ⟨-, pc, free, calls, rfl, -⟩ := submitInput_eq hs
    exact .same rfl
  | submitNext => exact mapsStep_submitNext hs
  | processBatch objs =>
    simp only [step] at hs
    split at hs
    · exact mapsStep_processBatch hs
    · cases hs
  | processSubBatch sbId objs =>
    simp only [step] at hs
    split at hs
    · exact mapsStep_processSubBatch hs
    · cases hs
  | removeSource sourceId flag =>
    cases hs
    exact .remove sourceId flag rfl rfl
  | flushReqs | trackerLibError =>
    cases hs
    exact .same rfl
  | flushCleared i | flushPush i | waitForCompletion =>
    simp only [step] at hs
    repeat' split at hs
    all_goals first
      | (cases hs; done)
      | (cases hs; exact .same rfl)

theorem maps_step (h : Reachable cfg s.maps) (hs : s.step cfg a = some s') : Reachable cfg s'.maps := by
  cases mapsStep hs with
  | dispatch p ha hsub hp hfree eq =>
    rw [eq]
    exact (dispatch_spec hsub _ s.maps (fun l hl => (mem_queueFrames hl).2.2.1) h).1
  | remove sourceId flag ha eq =>
    rw [eq]
    exact h.apply (.removeSource sourceId flag)
  | read ops hops eq =>
    rw [eq]
    exact h.applyAll ops

/-- The maps of the system are maps that the operations on them reach. -/
theorem maps_reach {ok : Sys → Action → Prop} (h : Reach (step cfg) ok (Started cfg) s) :
    Reachable cfg s.maps := by
  refine h.invariant (I := fun s => Reachable cfg s.maps) (fun s h0 => ?_) fun s a s' hI _ hs => maps_step hI hs
  obtain ⟨m, hm, rfl⟩ := Option.map_eq_some_iff.mp h0
  exact .init hm

end Sys
end Tracker
end DeepStream
