/-
# The video batch that the muxer forms

`copy_batch` copies the surfaces of a buffer behind those of the batch (`copy_buf`), and
appends a frame meta for each of them (`copy_meta`). `VideoBatch` holds both, with what
`copy_batch` passes to `copy_meta` about the pad it is at; a write behind the surfaces of
the batch has no result.

Each buffer of `num_surfaces_per_frame` surfaces that comes without metas of its own
becomes a block of as many surfaces and as many frame metas at the same positions
(`Built`).
-/
import DeepStream.Demux.Chain
import DeepStream.Lib.RowMajor
import DeepStream.Mux.Synch

namespace DeepStream
namespace Demux

open Mux
open NvStreamMux (CopyState)

/-- What the muxer reads of its buffers, by `raw`: the surfaces, the time stamp, the batch
meta if there is one, and when the buffer came in; and its settings. -/
structure VideoMux (σ : Type*) where
  surfaces : ℕ → List σ
  pts : ℕ → ℕ
  batchMeta : ℕ → Option NvDsBatchMeta
  creationTime : ℕ → ℕ
  sourceId : ℕ → ℕ
  numSurfacesPerFrame : ℕ
  latencyMeasurement : Bool

/-- The output batch with its destination meta. `padId` and `frameCount` are the id and the
frame count of the pad that `copy_batch` is at. -/
structure VideoBatch (σ : Type*) where
  batchSize : ℕ
  numFilled : ℕ
  surfaceList : List σ
  destMeta : NvDsBatchMeta
  padId : ℕ
  frameCount : ℕ

/-- The batch that `push_loop` begins with. -/
def VideoBatch.new (σ : Type*) (batchSize : ℕ) : VideoBatch σ := ⟨batchSize, 0, [], ⟨[], []⟩, 0, 0⟩

namespace VideoMux

variable {σ : Type*} (v : VideoMux σ)

/-- The frame metas that `copy_meta` appends for a buffer. -/
def frameMetas (out : VideoBatch σ) (raw batchId : ℕ) : List NvDsFrameMeta :=
  match v.batchMeta raw with
  | some srcMeta => srcMeta.frameMetaList.mapIdx fun k src => { src with batchId := wrapAdd 32 batchId k }
  | none =>
    (List.range v.numSurfacesPerFrame).map fun k =>
      { padIndex := out.padId
        sourceId := v.sourceId out.padId
        frameNum := wrapAdd 32 (out.frameCount % 2 ^ 32) k
        batchId := wrapAdd 32 batchId k
        bufPts := v.pts raw }

/-- `copy_meta`; `batchId` is `total_copied`. -/
def copyMeta (out : VideoBatch σ) (raw batchId : ℕ) : NvDsBatchMeta where
  frameMetaList := out.destMeta.frameMetaList ++ v.frameMetas out raw batchId
  batchUserMetaList :=
    if v.latencyMeasurement then
      out.destMeta.batchUserMetaList ++
        [.latency ⟨v.sourceId out.padId, out.frameCount % 2 ^ 32, out.padId, v.creationTime raw⟩]
    else out.destMeta.batchUserMetaList

/-- `copy_buf` of one buffer, and what `copy_batch` does next: `copy_meta` and
`update_frame_count`. -/
def copyBuf : CopyBuf (Option (VideoBatch σ)) := fun out src total =>
  match out with
  | none => (src.numFilled, none)
  | some out =>
    if wrapAdd 32 src.numFilled out.numFilled > out.batchSize ∨ src.numFilled = 0 then (0, some out)
    else if out.numFilled + src.numFilled > out.batchSize then (src.numFilled, none)
    else
      (src.numFilled,
        some
          { out with
            numFilled := wrapAdd 32 out.numFilled src.numFilled
            surfaceList := out.surfaceList ++ (v.surfaces src.raw).take src.numFilled
            destMeta := v.copyMeta out src.raw total
            frameCount := wrapAdd 64 out.frameCount src.numFilled })

/-- `copy_batch` comes to the pad `id`. -/
def enter (st : CopyState (Option (VideoBatch σ))) (id : ℕ) : CopyState (Option (VideoBatch σ)) :=
  match st.mux.pad id with
  | none => st
  | some pad => { st with out := st.out.map fun out => { out with padId := pad.id, frameCount := pad.frameCount } }

/-- The body of the loop of `copy_batch`. -/
def copySource (count : ℤ) (st : CopyState (Option (VideoBatch σ))) (id : ℕ) : CopyState (Option (VideoBatch σ)) :=
  NvStreamMux.copySource v.copyBuf count (enter st id) id

/-- `copy_batch` of video; `order` is the order of the counts. -/
def copyBatch (m : NvStreamMux) (out : VideoBatch σ) (order : List ℕ) : Option (CopyState (Option (VideoBatch σ))) :=
  match m.batch with
  | none => none
  | some b =>
    if order.Perm b.numSources.keys then
      some (order.foldl (fun st id => v.copySource (b.numSources.getD id 0) st id) ⟨m, some out, 0, []⟩)
    else none

/-! ### Blocks of surfaces and frame metas -/

/-- A buffer of one stream: as many surfaces as a frame has, and no metas of its own. -/
structure Single (b : BufferWrapper) : Prop where
  numFilled : b.numFilled = v.numSurfacesPerFrame
  surfaces : (v.surfaces b.raw).length = v.numSurfacesPerFrame
  batchMeta : v.batchMeta b.raw = none

/-- The batch has a block of surfaces and of frame metas for each of the buffers `parts`,
each with the pad it came from: the frame metas at the positions of a block name the pad
and the time stamp of its buffer, and each has its position as `batch_id`. -/
structure Built (parts : List (ℕ × BufferWrapper)) (out : VideoBatch σ) : Prop where
  pos : ∀ part ∈ parts, 0 < v.numSurfacesPerFrame
  block : ∀ part ∈ parts, (v.surfaces part.2.raw).length = v.numSurfacesPerFrame
  surfaces : out.surfaceList = parts.flatMap fun part => v.surfaces part.2.raw
  numFilled : out.numFilled = out.surfaceList.length
  room : out.surfaceList.length ≤ out.batchSize
  batchSize : out.batchSize < 2 ^ 32
  frames : out.destMeta.frameMetaList.length = parts.length * v.numSurfacesPerFrame
  frame : ∀ i k part, parts[i]? = some part → k < v.numSurfacesPerFrame →
    ∃ fm, out.destMeta.frameMetaList[i * v.numSurfacesPerFrame + k]? = some fm ∧ fm.padIndex = part.1 ∧
      fm.bufPts = v.pts part.2.raw ∧ fm.batchId = i * v.numSurfacesPerFrame + k

variable {v}

theorem built_new {batchSize : ℕ} (h : batchSize < 2 ^ 32) : v.Built [] (VideoBatch.new σ batchSize) where
  pos := fun _ h => absurd h List.not_mem_nil
  block := fun _ h => absurd h List.not_mem_nil
  surfaces := rfl
  numFilled := rfl
  room := Nat.zero_le _
  batchSize := h
  frames := (Nat.zero_mul _).symm
  frame := fun i _ _ hi => by simp at hi

theorem Built.length_surfaceList {parts : List (ℕ × BufferWrapper)} {out : VideoBatch σ} (h : v.Built parts out) :
    out.surfaceList.length = parts.length * v.numSurfacesPerFrame := by
  rw [h.surfaces]
  exact RowMajor.length_flatMap h.block

/-- What the loop makes of the batch for one buffer more: nothing if it does not fit, and
else a block behind the others. -/
theorem Built.append {parts : List (ℕ × BufferWrapper)} {out : VideoBatch σ} {b : BufferWrapper} (h : v.Built parts out)
    (hb : v.Single b) :
    v.copyBuf (some out) b out.surfaceList.length = (0, some out) ∨
      v.copyBuf (some out) b out.surfaceList.length = (b.numFilled, none) ∨
      ∃ out', v.copyBuf (some out) b out.surfaceList.length = (b.numFilled, some out') ∧ 0 < b.numFilled ∧
        out'.surfaceList.length = out.surfaceList.length + b.numFilled ∧ out'.padId = out.padId ∧
        v.Built (parts ++ [(out.padId, b)]) out' := by
  unfold copyBuf
  dsimp only
  by_cases hfull : wrapAdd 32 b.numFilled out.numFilled > out.batchSize ∨ b.numFilled = 0
  · exact .inl (if_pos hfull)
  · rw [if_neg hfull]
    right
    by_cases hroom : out.numFilled + b.numFilled > out.batchSize
    · exact .inl (if_pos hroom)
    · rw [if_neg hroom]
      right
      have hpos : 0 < v.numSurfacesPerFrame := by
        rw [← hb.numFilled]
        omega
      have htake : (v.surfaces b.raw).take b.numFilled = v.surfaces b.raw :=
        List.take_of_length_le (by rw [hb.surfaces, hb.numFilled])
      have hlen := h.length_surfaceList
      have hsize := h.batchSize
      have hfilled := h.numFilled
      have hword : wrapAdd 32 out.numFilled b.numFilled = out.numFilled + b.numFilled := wrapAdd_of_lt (by omega)
      have hmetas : (v.frameMetas out b.raw out.surfaceList.length).length = v.numSurfacesPerFrame := by
        unfold frameMetas
        rw [hb.batchMeta]
        rw [List.length_map, List.length_range]
      have hdest : (v.copyMeta out b.raw out.surfaceList.length).frameMetaList =
          out.destMeta.frameMetaList ++ v.frameMetas out b.raw out.surfaceList.length := rfl
      have hlength : (out.surfaceList ++ (v.surfaces b.raw).take b.numFilled).length =
          out.surfaceList.length + b.numFilled := by
        rw [htake, List.length_append, hb.surfaces, hb.numFilled]
      have hlast : ∀ part ∈ parts ++ [(out.padId, b)], part ∈ parts ∨ part = (out.padId, b) := fun part hp => by
        rwa [List.mem_append, List.mem_singleton] at hp
      refine ⟨_, rfl, Nat.pos_of_ne_zero fun hzero => hfull (.inr hzero), hlength, rfl, fun _ _ => hpos,
        fun part hp => ?_, ?_, hword.trans (by rw [hfilled, hlength]), ?_, hsize, ?_, fun i k part hi hk => ?_⟩
      · rcases hlast part hp with hp | rfl
        · exact h.block part hp
        · exact hb.surfaces
      · rw [List.flatMap_append, List.flatMap_singleton, ← h.surfaces, htake]
      · show (out.surfaceList ++ _).length ≤ out.batchSize
        rw [hlength]
        omega
      · rw [hdest, List.length_append, List.length_append, h.frames, hmetas, List.length_singleton, Nat.add_mul,
          Nat.one_mul]
      · rw [hdest]
        rcases Nat.lt_or_ge i parts.length with hlt | hge
        · rw [List.getElem?_append_left hlt] at hi
          rw [List.getElem?_append_left (by rw [h.frames]; exact RowMajor.lt_mul hlt hk)]
          exact h.frame i k part hi hk
        · -- the block of the buffer itself
          obtain ⟨hone, hat⟩ := List.getElem?_eq_some_iff.mp hi
          rw [List.length_append, List.length_singleton] at hone
          have hieq : i = parts.length := by omega
          have hpart : part = (out.padId, b) := by
            rw [hieq, List.getElem?_append_right le_rfl, Nat.sub_self, List.getElem?_cons_zero, Option.some.injEq] at hi
            exact hi.symm
          have hbatchId : wrapAdd 32 out.surfaceList.length k = i * v.numSurfacesPerFrame + k := by
            have hn := hb.numFilled
            rw [wrapAdd_of_lt (by omega), hlen, hieq]
          rw [List.getElem?_append_right (by rw [h.frames, hieq]; exact Nat.le_add_right _ _), h.frames, hieq,
            Nat.add_sub_cancel_left]
          unfold frameMetas
          rw [hb.batchMeta]
          dsimp only
          rw [List.getElem?_map, List.getElem?_range hk, hpart]
          exact ⟨_, rfl, rfl, rfl, hieq ▸ hbatchId⟩

/-! ### The loops of `copy_batch` -/

theorem Built.enter {parts : List (ℕ × BufferWrapper)} {out : VideoBatch σ} (h : v.Built parts out)
    (padId frameCount : ℕ) : v.Built parts { out with padId := padId, frameCount := frameCount } :=
  ⟨h.pos, h.block, h.surfaces, h.numFilled, h.room, h.batchSize, h.frames, h.frame⟩

/-- A write behind the surfaces is not undone. -/
theorem copyQueue_none {out : Option (VideoBatch σ)} (hout : out = none) (n total : ℕ) (q : List QueueEntry) :
    (NvStreamMux.copyQueue v.copyBuf n out total q).out = none := by
  fun_induction NvStreamMux.copyQueue v.copyBuf n out total q with
  | case1 | case2 => exact hout
  | case3 n out total e q r ih => exact ih hout
  | case4 n out total b q out' h =>
    rw [hout] at h
    exact (congrArg Prod.snd h).symm
  | case5 n out total b q k out' h r ih =>
    rw [hout] at h
    exact ih (congrArg Prod.snd h).symm

/-- The loop over one queue appends a block for each buffer it copies. -/
theorem built_copyQueue (n : ℕ) {out : Option (VideoBatch σ)} (total : ℕ) (q : List QueueEntry)
    {parts : List (ℕ × BufferWrapper)} {o : VideoBatch σ} (hout : out = some o) (hbuilt : v.Built parts o)
    (htotal : total = o.surfaceList.length) (hq : ∀ b ∈ buffersOf q, v.Single b) :
    let r := NvStreamMux.copyQueue v.copyBuf n out total q
    r.out = none ∨ ∃ o', r.out = some o' ∧ v.Built (parts ++ r.copied.map fun c => (o.padId, c.1)) o' ∧
      r.totalCopied = o'.surfaceList.length := by
  fun_induction NvStreamMux.copyQueue v.copyBuf n out total q generalizing parts o with
  | case1 | case2 => exact .inr ⟨o, hout, by rwa [List.map_nil, List.append_nil], htotal⟩
  | case3 n out total e q =>
    rename_i ih
    exact ih hout hbuilt htotal hq
  | case4 n out total b q out' h =>
    rw [hout, htotal] at h
    rcases hbuilt.append (hq b List.mem_cons_self) with hc | hc | ⟨o', hc, hpos, -⟩
    · have hsame : out' = some o := (congrArg Prod.snd (hc.symm.trans h)).symm
      exact .inr ⟨o, hsame, by rwa [List.map_nil, List.append_nil], htotal⟩
    · exact .inl (congrArg Prod.snd (hc.symm.trans h)).symm
    · have hzero : b.numFilled = 0 := congrArg Prod.fst (hc.symm.trans h)
      exact absurd hzero (Nat.ne_of_gt hpos)
  | case5 n out total b q k out' h =>
    rename_i ih
    rw [hout, htotal] at h
    have hrest : ∀ b ∈ buffersOf q, v.Single b := fun b' hb' => hq b' (List.mem_cons_of_mem b hb')
    rcases hbuilt.append (hq b List.mem_cons_self) with hc | hc | ⟨o', hc, -, hlen, hpad, happend⟩
    · have hzero : 0 = k + 1 := congrArg Prod.fst (hc.symm.trans h)
      omega
    · have hnone : out' = none := (congrArg Prod.snd (hc.symm.trans h)).symm
      exact .inl (copyQueue_none hnone _ _ _)
    · have hfilled : b.numFilled = k + 1 := congrArg Prod.fst (hc.symm.trans h)
      have hword : wrapAdd 32 total (k + 1) = o'.surfaceList.length := by
        have hroom := happend.room
        have hsize := happend.batchSize
        rw [htotal, ← hfilled, hlen]
        exact wrapAdd_of_lt (by omega)
      have hih := ih (congrArg Prod.snd (hc.symm.trans h)).symm happend hword hrest
      dsimp only at hih
      rw [List.append_assoc, hpad] at hih
      exact hih

/-- Every pad is stored under its id, and has buffers of one stream in its queue. -/
def Fed (v : VideoMux σ) (m : NvStreamMux) : Prop :=
  ∀ id pad, m.pad id = some pad → pad.id = id ∧ ∀ b ∈ buffersOf pad.queue, v.Single b

/-- The batch is built of the buffers copied so far, or is not defined. -/
def Copying (v : VideoMux σ) (st : CopyState (Option (VideoBatch σ))) : Prop :=
  st.out = none ∨ ∃ o, st.out = some o ∧ v.Built st.copied o ∧ st.totalCopied = o.surfaceList.length

theorem Fed.setPad {m : NvStreamMux} (h : v.Fed m) {id : ℕ} {q : SinkPad} (hid : q.id = id)
    (hq : ∀ b ∈ buffersOf q.queue, v.Single b) : v.Fed (m.setPad id q) := by
  intro a pad hpad
  rw [NvStreamMux.pad_setPad] at hpad
  by_cases ha : a = id
  · rw [if_pos ha, Option.some.injEq] at hpad
    exact hpad ▸ ⟨hid.trans ha.symm, hq⟩
  · rw [if_neg ha] at hpad
    exact h a pad hpad

theorem Fed.congr {m m' : NvStreamMux} (h : v.Fed m) (hpad : ∀ id, m'.pad id = m.pad id) : v.Fed m' :=
  fun id pad hp => h id pad (hpad id ▸ hp)

theorem copying_copySource {st : CopyState (Option (VideoBatch σ))} (count : ℤ) (id : ℕ) (hfed : v.Fed st.mux)
    (h : v.Copying st) : v.Fed (v.copySource count st id).mux ∧ v.Copying (v.copySource count st id) := by
  unfold copySource enter
  cases hp : st.mux.pad id with
  | none =>
    dsimp only
    rw [NvStreamMux.copySource_none v.copyBuf count hp]
    exact ⟨hfed.congr fun a => NvStreamMux.pad_lookup _ _ _, h⟩
  | some pad =>
    obtain ⟨hid, hsingle⟩ := hfed id pad hp
    have hlookup : (st.mux.lookup id).pad id = some pad := (NvStreamMux.pad_lookup _ _ _).trans hp
    unfold NvStreamMux.copySource
    dsimp only
    rw [hlookup]
    dsimp only
    generalize hout : st.out.map (fun out => { out with padId := pad.id, frameCount := pad.frameCount }) = out
    obtain ⟨-, hbuffers⟩ := NvStreamMux.copyQueue_spec v.copyBuf count.toNat out st.totalCopied pad.queue
    have hbuilt : ∀ o, st.out = some o → v.Built st.copied o → st.totalCopied = o.surfaceList.length →
        let r := NvStreamMux.copyQueue v.copyBuf count.toNat out st.totalCopied pad.queue
        r.out = none ∨ ∃ o', r.out = some o' ∧ v.Built (st.copied ++ r.copied.map fun c => (id, c.1)) o' ∧
          r.totalCopied = o'.surfaceList.length := by
      intro o ho hbuilt htotal
      rw [ho] at hout
      rw [← hid]
      exact built_copyQueue count.toNat st.totalCopied pad.queue hout.symm (hbuilt.enter pad.id pad.frameCount) htotal
        hsingle
    have hnone : st.out = none →
        (NvStreamMux.copyQueue v.copyBuf count.toNat out st.totalCopied pad.queue).out = none := by
      intro ho
      rw [ho] at hout
      exact copyQueue_none hout.symm _ _ _
    generalize NvStreamMux.copyQueue v.copyBuf count.toNat out st.totalCopied pad.queue = r at hbuffers hbuilt hnone ⊢
    refine ⟨?_, ?_⟩
    · have hfed' : v.Fed (st.mux.lookup id) := hfed.congr fun a => NvStreamMux.pad_lookup _ _ _
      refine Fed.setPad (hfed'.congr fun _ => rfl) ?_ fun b hb => hsingle b ?_
      · obtain ⟨c, w, hc, -⟩ := SinkPad.popBufferDone_iterate
          { pad with queue := r.queue, frameCount := wrapAdd 64 pad.frameCount (r.copied.map Prod.snd).sum } r.copied.length
        rw [hc]
        exact hid
      · rw [SinkPad.adjustEventIndices_queue, BatchPolicy.iterate_popBufferDone_queue] at hb
        rw [hbuffers]
        exact List.mem_append_right _ hb
    · rcases h with ho | ⟨o, ho, ho', htotal⟩
      · exact .inl (hnone ho)
      · exact hbuilt o ho ho' htotal

/-- What the copy of every source keeps holds of the batch that is formed. -/
theorem copyBatch_keeps {I : CopyState (Option (VideoBatch σ)) → Prop} {m : NvStreamMux} {out : VideoBatch σ}
    {order : List ℕ} {r : CopyState (Option (VideoBatch σ))} (hr : v.copyBatch m out order = some r)
    (h : I ⟨m, some out, 0, []⟩) (hstep : ∀ count st id, I st → I (v.copySource count st id)) : I r := by
  have hfold : ∀ (count : ℕ → ℤ) (l : List ℕ) st, I st → I (l.foldl (fun st id => v.copySource (count id) st id) st) := by
    intro count l
    induction l with
    | nil => exact fun _ h => h
    | cons id l ih => exact fun st h => ih _ (hstep (count id) st id h)
  unfold copyBatch at hr
  split at hr
  · cases hr
  · split at hr
    · cases hr
      exact hfold _ order _ h
    · cases hr

/-- **The batch is built of what was copied.** -/
theorem built_copyBatch {m : NvStreamMux} {batchSize : ℕ} (hsize : batchSize < 2 ^ 32) {order : List ℕ}
    {r : CopyState (Option (VideoBatch σ))} {out : VideoBatch σ} (hfed : v.Fed m)
    (hr : v.copyBatch m (VideoBatch.new σ batchSize) order = some r) (hout : r.out = some out) :
    v.Fed r.mux ∧ v.Built r.copied out := by
  have hstart : v.Copying ⟨m, some (VideoBatch.new σ batchSize), 0, []⟩ := .inr ⟨_, rfl, built_new hsize, rfl⟩
  have hkeeps := copyBatch_keeps (I := fun st => v.Fed st.mux ∧ v.Copying st) hr ⟨hfed, hstart⟩
  obtain ⟨hfed', hcopying⟩ := hkeeps fun count st id h => copying_copySource count id h.1 h.2
  refine ⟨hfed', ?_⟩
  rcases hcopying with hnone | ⟨o, ho, hbuilt, -⟩
  · rw [hnone] at hout
    cases hout
  · rw [ho, Option.some.injEq] at hout
    exact hout ▸ hbuilt

end VideoMux
end Demux
end DeepStream
