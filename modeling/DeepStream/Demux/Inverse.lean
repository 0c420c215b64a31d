/-
# The demuxer undoes the muxer

A muxer is fed with buffers of one stream each and forms batches of any capacity, which a
demuxer takes apart (`Line`). In a batch the frame metas and the surfaces have the same
positions (`VideoMux.Built`), so the demuxer, which walks the one with a stride and cuts
the other at the same position, finds the buffers that were copied. They leave the source
pad of their stream in the order in which they entered its sink pad, with their own
surfaces and time stamps, and what has not left yet is in the queue of the pad.
-/
import DeepStream.Demux.VideoBatch

namespace DeepStream
namespace Demux

open Mux
open NvStreamMux (CopyState)

variable {σ : Type*} {v : VideoMux σ}

/-! ### A batch is taken apart -/

/-- What is compared of a demuxed buffer. -/
def OutBuffer.content (out : OutBuffer σ) : ℕ × List σ × ℕ := (out.streamId, out.surfaces, out.pts)

/-- What is compared of a buffer that entered a sink pad. -/
def VideoMux.content (v : VideoMux σ) (part : ℕ × BufferWrapper) : ℕ × List σ × ℕ :=
  (part.1, v.surfaces part.2.raw, v.pts part.2.raw)

section Demux

variable {d : NvStreamDemux} {parts : List (ℕ × BufferWrapper)} {out : VideoBatch σ}

/-- At the position of a block the demuxer makes the buffer of the block. -/
theorem createSharedMemBuf_built (h : v.Built parts out) {i : ℕ} {part : ℕ × BufferWrapper} (hi : parts[i]? = some part) :
    ∃ fm buf, out.destMeta.frameMetaList[i * v.numSurfacesPerFrame]? = some fm ∧ fm.padIndex = part.1 ∧
      createSharedMemBuf v.numSurfacesPerFrame out.surfaceList out.destMeta (i * v.numSurfacesPerFrame) = some buf ∧
      ({ buf with pts := fm.bufPts } : OutBuffer σ).content = v.content part := by
  have hpos := h.pos part (List.mem_of_getElem? hi)
  obtain ⟨fm, hfm, hpad, hpts, -⟩ := h.frame i 0 part hi hpos
  rw [Nat.add_zero] at hfm
  have hroom : i * v.numSurfacesPerFrame + v.numSurfacesPerFrame ≤ out.destMeta.frameMetaList.length := by
    rw [h.frames, ← Nat.succ_mul]
    exact Nat.mul_le_mul_right _ (List.getElem?_eq_some_iff.mp hi).1
  have hsurfaces : (out.surfaceList.drop (i * v.numSurfacesPerFrame)).take v.numSurfacesPerFrame =
      v.surfaces part.2.raw := by
    rw [h.surfaces]
    exact RowMajor.take_drop_flatMap h.block hi
  obtain ⟨frames, hframes⟩ : ∃ frames, copyFrameMetas out.destMeta.frameMetaList (i * v.numSurfacesPerFrame)
      v.numSurfacesPerFrame = some frames := ⟨_, by rw [copyFrameMetas_eq, if_pos (.inr hroom)]⟩
  unfold createSharedMemBuf
  rw [hfm, hframes]
  refine ⟨fm, _, rfl, hpad, rfl, ?_⟩
  show (fm.padIndex, _, fm.bufPts) = _
  rw [hpad, hpts, hsurfaces]
  rfl

/-- The loop of the demuxer from a block on. -/
theorem cudaBatchLoop_built (h : v.Built parts out) (hn : d.numSurfacesPerFrame = v.numSurfacesPerFrame)
    (hpos : 0 < v.numSurfacesPerFrame) : ∀ fuel i, parts.length - i < fuel →
    ∃ bufs, d.cudaBatchLoop out.surfaceList out.destMeta fuel (i * v.numSurfacesPerFrame) = some bufs ∧
      bufs.map OutBuffer.content = ((parts.drop i).filter fun part => d.videoReady part.1).map v.content := by
  intro fuel
  induction fuel with
  | zero => exact fun i hi => absurd hi (Nat.not_lt_zero _)
  | succ fuel ih =>
    intro i hi
    unfold NvStreamDemux.cudaBatchLoop
    rw [h.frames]
    by_cases hlt : i < parts.length
    · rw [if_pos (Nat.mul_lt_mul_of_pos_right hlt hpos)]
      have hat : parts[i]? = some parts[i] := List.getElem?_eq_getElem hlt
      obtain ⟨fm, buf, hfm, hpad, hbuf, hcontent⟩ := createSharedMemBuf_built h hat
      obtain ⟨rest, hrest, hmap⟩ := ih (i + 1) (by omega)
      rw [Nat.succ_mul] at hrest
      rw [hfm, hn, List.drop_eq_getElem_cons hlt]
      dsimp only
      rw [hpad, hbuf, hrest]
      rw [List.filter_cons]
      by_cases hready : d.videoReady parts[i].1
      · rw [if_pos hready, if_pos hready, List.map_cons, ← hmap]
        exact ⟨_, rfl, by rw [List.map_cons, hcontent]⟩
      · rw [if_neg hready, if_neg hready]
        exact ⟨rest, rfl, hmap⟩
    · rw [if_neg (by rw [Nat.not_lt]; exact Nat.mul_le_mul_right _ (Nat.not_lt.mp hlt)),
        List.drop_of_length_le (Nat.not_lt.mp hlt)]
      exact ⟨[], rfl, rfl⟩

/-- **A batch is taken apart into the buffers it was built of.** Those of which the source
pad can take a buffer are pushed, in the order in which they were copied. -/
theorem demux_built (flow : OutBuffer σ → GstFlowReturn) (h : v.Built parts out) (haudio : d.isAudio = false)
    (hn : d.numSurfacesPerFrame = v.numSurfacesPerFrame) :
    ∃ r, d.sinkChainCudaBatch flow ⟨out.surfaceList, [], some out.destMeta⟩ = some r ∧
      r.pushed.map OutBuffer.content = (parts.filter fun part => d.videoReady part.1).map v.content := by
  have hloop : ∃ bufs, d.cudaBatchLoop out.surfaceList out.destMeta (out.destMeta.frameMetaList.length + 1) 0 =
      some bufs ∧ bufs.map OutBuffer.content = (parts.filter fun part => d.videoReady part.1).map v.content := by
    rcases Nat.eq_zero_or_pos v.numSurfacesPerFrame with hzero | hpos
    · -- a batch of buffers without surfaces is empty
      have hempty : parts = [] := by
        rw [List.eq_nil_iff_forall_not_mem]
        intro part hp
        have := h.pos part hp
        omega
      have hframes := h.frames
      rw [hempty, List.length_nil, Nat.zero_mul] at hframes
      rw [hempty, hframes]
      unfold NvStreamDemux.cudaBatchLoop
      rw [hframes, if_neg (Nat.lt_irrefl 0)]
      exact ⟨[], rfl, rfl⟩
    · have hfuel : parts.length - 0 < out.destMeta.frameMetaList.length + 1 := by
        rw [h.frames]
        have := Nat.le_mul_of_pos_right parts.length hpos
        omega
      have hat := cudaBatchLoop_built h hn hpos _ 0 hfuel
      rwa [Nat.zero_mul, List.drop_zero] at hat
  obtain ⟨bufs, hbufs, hmap⟩ := hloop
  unfold NvStreamDemux.sinkChainCudaBatch
  rw [haudio, if_neg Bool.false_ne_true]
  dsimp only
  rw [hbufs, Option.map_some]
  exact ⟨_, rfl, hmap⟩

end Demux

/-! ### What a batch takes of the queues -/

section Copy

variable {st : CopyState (Option (VideoBatch σ))}

theorem enter_mux (st : CopyState (Option (VideoBatch σ))) (id : ℕ) :
    (VideoMux.enter st id).mux = st.mux ∧ (VideoMux.enter st id).copied = st.copied := by
  unfold VideoMux.enter
  cases st.mux.pad id with
  | none => exact ⟨rfl, rfl⟩
  | some pad => exact ⟨rfl, rfl⟩

/-- What the loop takes from a queue it appends to what was copied. -/
theorem queuedOf_copySource (v : VideoMux σ) (count : ℤ) (st : CopyState (Option (VideoBatch σ))) (a id : ℕ) :
    ofPad id (v.copySource count st a).copied ++ (v.copySource count st a).mux.queuedOf id =
      ofPad id st.copied ++ st.mux.queuedOf id := by
  obtain ⟨hmux, hcopied⟩ := enter_mux st a
  unfold VideoMux.copySource
  rw [← hmux, ← hcopied]
  generalize VideoMux.enter st a = st
  by_cases ha : id = a
  · rw [ha]
    cases hp : st.mux.pad a with
    | none =>
      rw [NvStreamMux.copySource_none v.copyBuf count hp]
      show _ ++ (st.mux.lookup a).queuedOf a = _
      rw [NvStreamMux.queuedOf_congr fun id => NvStreamMux.pad_lookup st.mux a id]
    | some pad =>
      obtain ⟨q, copied, hq, hc, hsplit, -⟩ := NvStreamMux.copySource_at v.copyBuf count hp
      rw [hc, NvStreamMux.queuedOf_of_pad hq, NvStreamMux.queuedOf_of_pad hp, hsplit, List.append_assoc]
  · obtain ⟨hpad, hc⟩ := NvStreamMux.copySource_other v.copyBuf count st ha
    rw [hc, NvStreamMux.queuedOf, hpad, NvStreamMux.queuedOf]

theorem queuedOf_copyBatch {m : NvStreamMux} {out : VideoBatch σ} {order : List ℕ}
    {r : CopyState (Option (VideoBatch σ))} (hr : v.copyBatch m out order = some r) (id : ℕ) :
    ofPad id r.copied ++ r.mux.queuedOf id = m.queuedOf id := by
  have hkeeps := VideoMux.copyBatch_keeps (I := fun st => ofPad id st.copied ++ st.mux.queuedOf id = m.queuedOf id) hr rfl
  exact hkeeps fun count st a h => (queuedOf_copySource v count st a id).trans h

end Copy

/-! ### A muxer and a demuxer in a line -/

/-- The frame metas of a batch have the positions of its surfaces: the meta at a position
has it as `batch_id` and describes the surface there, which is one of a buffer that
entered the pad that the meta names. -/
structure VideoMux.Aligned (v : VideoMux σ) (entered : ℕ → List BufferWrapper) (out : VideoBatch σ) : Prop where
  length : out.destMeta.frameMetaList.length = out.surfaceList.length
  describes : ∀ j fm, out.destMeta.frameMetaList[j]? = some fm → fm.batchId = j ∧
    ∃ b ∈ entered fm.padIndex, fm.bufPts = v.pts b.raw ∧
      out.surfaceList[j]? = (v.surfaces b.raw)[j % v.numSurfacesPerFrame]?

/-- The frame metas of a batch that is built of buffers that entered. -/
theorem VideoMux.Built.aligned {parts : List (ℕ × BufferWrapper)} {out : VideoBatch σ} (h : v.Built parts out)
    {entered : ℕ → List BufferWrapper} (hentered : ∀ part ∈ parts, part.2 ∈ entered part.1) :
    v.Aligned entered out := by
  refine ⟨h.frames.trans h.length_surfaceList.symm, fun j fm hfm => ?_⟩
  have hj : j < parts.length * v.numSurfacesPerFrame := by
    rw [← h.frames]
    exact (List.getElem?_eq_some_iff.mp hfm).1
  have hpos : 0 < v.numSurfacesPerFrame := Nat.pos_of_mul_pos_left (Nat.zero_lt_of_lt hj)
  have hblock : j / v.numSurfacesPerFrame < parts.length := Nat.div_lt_of_lt_mul (Nat.mul_comm _ _ ▸ hj)
  have hoffset : j % v.numSurfacesPerFrame < v.numSurfacesPerFrame := Nat.mod_lt _ hpos
  have hsplit : j / v.numSurfacesPerFrame * v.numSurfacesPerFrame + j % v.numSurfacesPerFrame = j := Nat.div_add_mod' _ _
  have hat := List.getElem?_eq_getElem hblock
  generalize parts[j / v.numSurfacesPerFrame] = part at hat
  obtain ⟨fm', hfm', hpad, hpts, hid⟩ := h.frame _ _ _ hat hoffset
  rw [hsplit] at hfm' hid
  have hsame : fm' = fm := Option.some.inj (hfm'.symm.trans hfm)
  rw [hsame] at hpad hpts hid
  refine ⟨hid, part.2, ?_, hpts, ?_⟩
  · rw [hpad]
    exact hentered part (List.mem_of_getElem? hat)
  · have hcut : ((out.surfaceList.drop (j / v.numSurfacesPerFrame * v.numSurfacesPerFrame)).take
        v.numSurfacesPerFrame) = v.surfaces part.2.raw := by
      rw [h.surfaces]
      exact RowMajor.take_drop_flatMap h.block hat
    rw [← hcut, List.getElem?_take, if_pos hoffset, List.getElem?_drop, hsplit]

/-- A muxer, what entered its sink pads, the batches it formed, and what left the source
pads of the demuxer. -/
structure Line (σ : Type*) where
  mux : NvStreamMux
  entered : ℕ → List BufferWrapper
  formed : List (VideoBatch σ)
  left : ℕ → List (OutBuffer σ)

inductive LineLabel where
  | addPad (id : ℕ)
  | addBuffer (id : ℕ) (b : BufferWrapper)
  /-- `copy_batch` of the counts of `batch`, which the demuxer then takes apart. -/
  | copyBatch (batch : Batch) (batchSize : ℕ) (order : List ℕ)

namespace Line

def new (σ : Type*) (config : MuxConfig) : Line σ := ⟨NvStreamMux.new config, fun _ => [], [], fun _ => []⟩

def step (v : VideoMux σ) (d : NvStreamDemux) (flow : OutBuffer σ → GstFlowReturn) (l : Line σ) :
    LineLabel → Option (Line σ)
  | .addPad id => if (l.mux.pad id).isNone then some { l with mux := l.mux.addPad id } else none
  | .addBuffer id b =>
    (l.mux.addBufferQueue id b).map fun m =>
      { l with mux := m, entered := Function.update l.entered id (l.entered id ++ [b]) }
  | .copyBatch batch batchSize order =>
    match v.copyBatch { l.mux with batch := some batch } (VideoBatch.new σ batchSize) order with
    | none => none
    | some r =>
      match r.out with
      | none => none
      | some out =>
        match d.sinkChainCudaBatch flow ⟨out.surfaceList, [], some out.destMeta⟩ with
        | none => none
        | some result =>
          some
            { l with
              mux := r.mux
              formed := l.formed ++ [out]
              left := fun p => l.left p ++ result.pushed.filter fun buf => buf.streamId = p }

/-- The buffers are of one stream, and the capacity is one that the batch can have. -/
def Ok (v : VideoMux σ) : LineLabel → Prop
  | .addPad _ => True
  | .addBuffer _ b => v.Single b
  | .copyBatch _ batchSize _ => batchSize < 2 ^ 32

/-- What entered a pad has left or is queued, and the batches are aligned. -/
structure Inv (v : VideoMux σ) (d : NvStreamDemux) (l : Line σ) : Prop where
  fed : v.Fed l.mux
  inverse : ∀ p, ∃ copied, l.entered p = copied ++ l.mux.queuedOf p ∧
    (d.videoReady p → (l.left p).map OutBuffer.content = copied.map fun b => v.content (p, b))
  aligned : ∀ out ∈ l.formed, v.Aligned l.entered out

variable {d : NvStreamDemux} {flow : OutBuffer σ → GstFlowReturn} {l l' : Line σ}

theorem inv_new (v : VideoMux σ) (d : NvStreamDemux) (config : MuxConfig) : Inv v d (Line.new σ config) where
  fed := fun id pad hpad => by
    have hnone : (NvStreamMux.new config).pad id = none := by
      show ((∅ : Inputs)[id]?).join = none
      rw [Std.TreeMap.getElem?_emptyc]
      rfl
    cases hnone.symm.trans hpad
  inverse := fun p => ⟨[], by
    have hnone : (NvStreamMux.new config).queuedOf p = [] := by
      show (((∅ : Inputs)[p]?.join).map fun q : SinkPad => buffersOf q.queue).getD [] = []
      rw [Std.TreeMap.getElem?_emptyc]
      rfl
    exact hnone.symm, fun _ => rfl⟩
  aligned := fun _ h => absurd h List.not_mem_nil

theorem Inv.addPad (h : Inv v d l) (id : ℕ) (hl : step v d flow l (.addPad id) = some l') : Inv v d l' := by
  unfold step at hl
  dsimp only at hl
  split at hl
  · rename_i hnone
    cases hl
    rw [Option.isNone_iff_eq_none] at hnone
    refine ⟨?_, fun p => ?_, h.aligned⟩
    · have hfed : v.Fed { l.mux with
          batchPolicy := l.mux.batchPolicy.checkAndUpdateDefaults id, allPadsEos := false } :=
        h.fed.congr fun _ => rfl
      exact hfed.setPad rfl fun b hb => absurd hb List.not_mem_nil
    · obtain ⟨copied, hentered, hleft⟩ := h.inverse p
      refine ⟨copied, hentered.trans (congrArg (copied ++ ·) ?_), hleft⟩
      show l.mux.queuedOf p = (NvStreamMux.setPad _ id _).queuedOf p
      rw [NvStreamMux.queuedOf_setPad]
      by_cases hp : p = id
      · rw [if_pos hp, hp, NvStreamMux.queuedOf, hnone]
        rfl
      · rw [if_neg hp]
        rfl
  · cases hl

theorem Inv.addBuffer (h : Inv v d l) {id : ℕ} {b : BufferWrapper} (hb : v.Single b)
    (hl : step v d flow l (.addBuffer id b) = some l') : Inv v d l' := by
  obtain ⟨m, hm, rfl⟩ := Option.map_eq_some_iff.mp hl
  have hgrow : ∀ p c, c ∈ l.entered p → c ∈ Function.update l.entered id (l.entered id ++ [b]) p := fun p c hc => by
    by_cases hp : p = id
    · rw [hp, Function.update_self]
      exact List.mem_append_left _ (hp ▸ hc)
    · rwa [Function.update_of_ne hp]
  unfold NvStreamMux.addBufferQueue at hm
  split at hm
  · cases hm
  · rename_i pad hpad
    cases hm
    obtain ⟨hid, hsingle⟩ := h.fed id pad hpad
    have hqueue : ∀ q : SinkPad, q.queue = pad.queue →
        buffersOf (q.queueEntry (.buffer b)).queue = buffersOf pad.queue ++ [b] := fun q hq => by
      rw [SinkPad.queueEntry_queue, hq, buffersOf_append]
      rfl
    have hpad' : ∀ q : SinkPad, (q.queueEntry (.buffer b)).id = q.id := fun _ => rfl
    refine ⟨?_, fun p => ?_, fun out hout => ?_⟩
    · have hfed : v.Fed { l.mux with
          state := .playing
          batchPolicy := { l.mux.batchPolicy with totalBufAvailable := wrapAdd 32 l.mux.batchPolicy.totalBufAvailable 1 }
          allPadsEos := false } :=
        h.fed.congr fun _ => rfl
      refine hfed.setPad ?_ fun c hc => ?_
      · rw [hpad']
        split <;> exact hid
      · rw [hqueue _ (by split <;> rfl), List.mem_append, List.mem_singleton] at hc
        rcases hc with hc | rfl
        · exact hsingle c hc
        · exact hb
    · obtain ⟨copied, hentered, hleft⟩ := h.inverse p
      refine ⟨copied, ?_, hleft⟩
      show Function.update l.entered id (l.entered id ++ [b]) p = copied ++ (NvStreamMux.setPad _ id _).queuedOf p
      rw [NvStreamMux.queuedOf_setPad]
      by_cases hp : p = id
      · rw [hp] at hentered
        rw [if_pos hp, hp, Function.update_self, hqueue _ (by split <;> rfl), hentered,
          NvStreamMux.queuedOf_of_pad hpad, List.append_assoc]
      · rw [if_neg hp, Function.update_of_ne hp]
        exact hentered
    · have haligned := h.aligned out hout
      refine ⟨haligned.length, fun j fm hfm => ?_⟩
      obtain ⟨hj, c, hc, hdescribes⟩ := haligned.describes j fm hfm
      exact ⟨hj, c, hgrow _ c hc, hdescribes⟩

/-- The part of a pad of what is pushed is what was copied from it. -/
theorem content_filter {pushed : List (OutBuffer σ)} {parts : List (ℕ × BufferWrapper)}
    (h : pushed.map OutBuffer.content = (parts.filter fun part => d.videoReady part.1).map v.content) {p : ℕ}
    (hp : d.videoReady p) :
    (pushed.filter fun buf => buf.streamId = p).map OutBuffer.content =
      (ofPad p parts).map fun b => v.content (p, b) := by
  have hfront : (pushed.filter fun buf => buf.streamId = p).map OutBuffer.content =
      (pushed.map OutBuffer.content).filter fun c => c.1 = p := by
    rw [List.filter_map]
    rfl
  rw [hfront, h, List.filter_map, List.filter_filter]
  unfold ofPad
  rw [List.map_map]
  have hsame : ∀ part ∈ parts, (((fun c : ℕ × List σ × ℕ => decide (c.1 = p)) ∘ v.content) part &&
      d.videoReady part.1) = decide (part.1 = p) := fun part _ => by
    show (decide (part.1 = p) && d.videoReady part.1) = _
    by_cases hpart : part.1 = p
    · rw [hpart, hp, Bool.and_true]
    · rw [decide_eq_false hpart, Bool.false_and]
  rw [List.filter_congr hsame]
  refine List.map_congr_left fun part hpart => ?_
  have hpart : part.1 = p := of_decide_eq_true (List.mem_filter.mp hpart).2
  show v.content part = v.content (p, part.2)
  rw [← hpart]

theorem Inv.copyBatch (h : Inv v d l) (haudio : d.isAudio = false) (hn : d.numSurfacesPerFrame = v.numSurfacesPerFrame)
    {batch : Batch} {batchSize : ℕ} {order : List ℕ} (hsize : batchSize < 2 ^ 32)
    (hl : step v d flow l (.copyBatch batch batchSize order) = some l') : Inv v d l' := by
  unfold step at hl
  dsimp only at hl
  split at hl
  · cases hl
  · rename_i r hr
    split at hl
    · cases hl
    · rename_i out hout
      have hfed : v.Fed { l.mux with batch := some batch } := h.fed.congr fun _ => rfl
      obtain ⟨hfed', hbuilt⟩ := VideoMux.built_copyBatch hsize hfed hr hout
      obtain ⟨result, hresult, hpushed⟩ := demux_built flow hbuilt haudio hn
      rw [hresult] at hl
      cases hl
      have hqueued := queuedOf_copyBatch hr
      refine ⟨hfed', fun p => ?_, fun out' hout' => ?_⟩
      · obtain ⟨copied, hentered, hleft⟩ := h.inverse p
        refine ⟨copied ++ ofPad p r.copied, ?_, fun hp => ?_⟩
        · rw [List.append_assoc, hqueued p]
          exact hentered
        · rw [List.map_append, List.map_append, hleft hp, content_filter hpushed hp]
      · rcases List.mem_append.mp hout' with hout' | hout'
        · exact h.aligned out' hout'
        · rw [List.mem_singleton] at hout'
          rw [hout']
          refine hbuilt.aligned fun part hpart => ?_
          obtain ⟨copied, hentered, -⟩ := h.inverse part.1
          have hmem : part.2 ∈ ofPad part.1 r.copied :=
            List.mem_map.mpr ⟨part, List.mem_filter.mpr ⟨hpart, decide_eq_true rfl⟩, rfl⟩
          have hq : l.mux.queuedOf part.1 = ofPad part.1 r.copied ++ r.mux.queuedOf part.1 := (hqueued part.1).symm
          rw [hentered, hq]
          exact List.mem_append_right _ (List.mem_append_left _ hmem)

theorem inv_of_reach (haudio : d.isAudio = false) (hn : d.numSurfacesPerFrame = v.numSurfacesPerFrame)
    {config : MuxConfig} (h : Reach (step v d flow) (fun _ a => Ok v a) (· = Line.new σ config) l) : Inv v d l := by
  refine h.invariant (fun l hl => hl ▸ inv_new v d config) fun l a l' hinv hok hl => ?_
  cases a with
  | addPad id => exact hinv.addPad id hl
  | addBuffer id b => exact hinv.addBuffer hok hl
  | copyBatch batch batchSize order => exact hinv.copyBatch haudio hn hok hl

/-- **Mux and demux are inverse per stream.** Let a muxer be fed with single-stream
buffers and form any batches of them, and let a demuxer with as many surfaces per frame
take the batches apart. At any time the buffers that left the source pad of a stream,
which can take buffers, are those that entered its sink pad, up to those still queued, in
order and each with its own surfaces and time stamp; and in every batch the frame meta at
a position describes the surface there. -/
theorem demux_inverse (haudio : d.isAudio = false) (hn : d.numSurfacesPerFrame = v.numSurfacesPerFrame)
    {config : MuxConfig} (h : Reach (step v d flow) (fun _ a => Ok v a) (· = Line.new σ config) l) :
    (∀ p, d.videoReady p → ∃ copied, l.entered p = copied ++ l.mux.queuedOf p ∧
      (l.left p).map OutBuffer.content = copied.map fun b => v.content (p, b)) ∧
    ∀ out ∈ l.formed, v.Aligned l.entered out := by
  have hinv := inv_of_reach haudio hn h
  refine ⟨fun p hp => ?_, hinv.aligned⟩
  obtain ⟨copied, hentered, hleft⟩ := hinv.inverse p
  exact ⟨copied, hentered, hleft hp⟩

instance (v : VideoMux σ) (b : BufferWrapper) : Decidable (v.Single b) :=
  decidable_of_iff (b.numFilled = v.numSurfacesPerFrame ∧ (v.surfaces b.raw).length = v.numSurfacesPerFrame ∧
      (v.batchMeta b.raw).isNone = true)
    ⟨fun h => ⟨h.1, h.2.1, Option.isNone_iff_eq_none.mp h.2.2⟩,
      fun h => ⟨h.numFilled, h.surfaces, Option.isNone_iff_eq_none.mpr h.batchMeta⟩⟩

instance (v : VideoMux σ) : ∀ a, Decidable (Ok v a)
  | .addPad _ => inferInstanceAs (Decidable True)
  | .addBuffer _ b => inferInstanceAs (Decidable (v.Single b))
  | .copyBatch _ batchSize _ => inferInstanceAs (Decidable (batchSize < 2 ^ 32))

/-- Buffers of two surfaces, which the number of the buffer names. -/
def dewarped : VideoMux ℕ where
  surfaces raw := [2 * raw, 2 * raw + 1]
  pts raw := raw
  batchMeta _ := none
  creationTime _ := 0
  sourceId id := id
  numSurfacesPerFrame := 2
  latencyMeasurement := false

def linked : NvStreamDemux where
  isAudio := false
  numSurfacesPerFrame := 2
  padIndexes _ := some ⟨true, true⟩

/-- Two buffers on the one pad and one on the other, and a batch of two of them. -/
def threeBuffers : List LineLabel :=
  [.addPad 0, .addPad 1, .addBuffer 0 ⟨1, 2⟩, .addBuffer 1 ⟨2, 2⟩, .addBuffer 0 ⟨3, 2⟩,
    .copyBatch { Batch.new 2 with numSources := (∅ : Std.TreeMap ℕ ℤ).insert 0 2 |>.insert 1 1 } 5 [1, 0]]

/-- The batch is full before the last buffer. -/
theorem demux_inverse_threeBuffers : ∃ l : Line ℕ,
    exec (step dewarped linked fun _ => .ok) (fun _ a => Ok dewarped a) (Line.new ℕ Sys.plain) threeBuffers = some l ∧
    (l.left 0).map OutBuffer.content = [(0, [2, 3], 1)] ∧ l.mux.queuedOf 0 = [⟨3, 2⟩] ∧
    (∃ copied, l.entered 0 = copied ++ l.mux.queuedOf 0 ∧
      (l.left 0).map OutBuffer.content = copied.map fun b => dewarped.content (0, b)) ∧
    ∀ out ∈ l.formed, dewarped.Aligned l.entered out := by
  have hrun : (exec (step dewarped linked fun _ => .ok) (fun _ a => Ok dewarped a) (Line.new ℕ Sys.plain)
      threeBuffers).map (fun l => ((l.left 0).map OutBuffer.content, l.mux.queuedOf 0)) =
      some ([(0, [2, 3], 1)], [⟨3, 2⟩]) := by decide +kernel
  obtain ⟨l, hl, hcontent⟩ := Option.map_eq_some_iff.mp hrun
  obtain ⟨hleft, hqueue⟩ := Prod.mk.inj hcontent
  have hstart : Reach (step dewarped linked fun _ => .ok) (fun _ a => Ok dewarped a) (· = Line.new ℕ Sys.plain)
      (Line.new ℕ Sys.plain) := .init rfl
  have hreach := Reach.of_exec threeBuffers hstart hl
  obtain ⟨hinverse, haligned⟩ := demux_inverse rfl rfl hreach
  exact ⟨l, hl, hleft, hqueue, hinverse 0 rfl, haligned⟩

end Line

end Demux
end DeepStream
