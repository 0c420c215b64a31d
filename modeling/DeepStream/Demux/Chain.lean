/-
# The stream demuxer

`gst_nvstreamdemux_sink_chain_cuda_batch` takes a batch apart: it walks the list of the
frame metas with a stride, or for audio the buffers of the batch, and for each makes a
buffer of its own with the surfaces at that position, copies of its frame metas and the
latency metas of the batch that are its own, and pushes it on the source pad of its
stream.

A frame meta that is read past the end of the list is a null pointer, and there is no
result; the loop of the video batch is given as many rounds as there are frames, which
is all it needs unless its stride is zero.
-/
import Mathlib.Data.List.Basic

namespace DeepStream
namespace Demux

/-- The fields of a frame meta, of video or audio, that muxing and demuxing use. -/
structure NvDsFrameMeta where
  padIndex : ℕ
  sourceId : ℕ
  frameNum : ℕ
  batchId : ℕ
  bufPts : ℕ
  deriving DecidableEq, Repr

/-- The latency of one component for one frame; `times` is what it measured. -/
structure NvDsMetaCompLatency where
  sourceId : ℕ
  frameNum : ℕ
  padIndex : ℕ
  times : ℕ
  deriving DecidableEq, Repr

/-- A user meta of a batch: `NVDS_LATENCY_MEASUREMENT_META`, or of another type. -/
inductive NvDsUserMeta where
  | latency (l : NvDsMetaCompLatency)
  | other (metaType : ℕ)
  deriving DecidableEq, Repr

structure NvDsBatchMeta where
  frameMetaList : List NvDsFrameMeta
  batchUserMetaList : List NvDsUserMeta
  deriving DecidableEq, Repr

/-- A source pad of the demuxer. -/
structure SrcPad where
  hasCurrentCaps : Bool
  isLinked : Bool
  deriving DecidableEq, Repr

structure NvStreamDemux where
  isAudio : Bool
  numSurfacesPerFrame : ℕ
  padIndexes : ℕ → Option SrcPad

inductive GstFlowReturn where
  | ok | notLinked | error | other
  deriving DecidableEq, Repr

section Chain

variable {σ : Type*}

/-- One buffer of an audio batch. -/
structure NvBufAudioParams (σ : Type*) where
  sourceId : ℕ
  data : σ
  bufPts : ℕ

/-- The batched buffer: the surfaces of a video batch or the buffers of an audio batch. -/
structure BatchBuffer (σ : Type*) where
  surfaceList : List σ
  audioBuffers : List (NvBufAudioParams σ)
  batchMeta : Option NvDsBatchMeta

/-- A buffer that the demuxer makes for the source pad of a stream. -/
structure OutBuffer (σ : Type*) where
  streamId : ℕ
  surfaces : List σ
  pts : ℕ
  batchMeta : NvDsBatchMeta

/-- What the chain function made, what it pushed, and its result. -/
structure ChainResult (σ : Type*) where
  created : List (OutBuffer σ)
  pushed : List (OutBuffer σ)
  ret : GstFlowReturn

/-- The loop that copies the frame metas of one buffer, numbered anew. -/
def copyFrameMetas (frames : List NvDsFrameMeta) (index : ℕ) : ℕ → Option (List NvDsFrameMeta)
  | 0 => some []
  | k + 1 =>
    match copyFrameMetas frames index k, frames[index + k]? with
    | some copied, some src => some (copied ++ [{ src with batchId := k }])
    | _, _ => none

/-- `frame_number` after the loop over the frame metas of a buffer. -/
def noteFrameNumber (frameNumber : ℕ) (frames : List NvDsFrameMeta) : ℕ :=
  frames.foldl (fun number src => if number = 0 then src.frameNum else number) frameNumber

/-- The test of a user meta of the batch. -/
def latencyMatches (streamId frameNumber : ℕ) : NvDsUserMeta → Bool
  | .latency l => l.sourceId = streamId ∧ l.frameNum = frameNumber
  | .other _ => false

/-- `create_shared_mem_buf`; the caller sets the time stamp. -/
def createSharedMemBuf (numSurfacesPerFrame : ℕ) (surfaceList : List σ) (srcMeta : NvDsBatchMeta) (index : ℕ) :
    Option (OutBuffer σ) :=
  match srcMeta.frameMetaList[index]?, copyFrameMetas srcMeta.frameMetaList index numSurfacesPerFrame with
  | some frameMeta, some frames =>
    some
      { streamId := frameMeta.padIndex
        surfaces := (surfaceList.drop index).take numSurfacesPerFrame
        pts := 0
        batchMeta :=
          { frameMetaList := frames
            batchUserMetaList :=
              srcMeta.batchUserMetaList.filter (latencyMatches frameMeta.padIndex (noteFrameNumber 0 frames)) } }
  | _, _ => none

namespace NvStreamDemux

variable (d : NvStreamDemux)

/-- The source pad of a stream can take a video buffer. -/
def videoReady (streamId : ℕ) : Bool := (d.padIndexes streamId).any fun pad => pad.hasCurrentCaps ∧ pad.isLinked

/-- The source pad of a stream can take an audio buffer. -/
def audioReady (streamId : ℕ) : Bool := (d.padIndexes streamId).any fun pad => pad.isLinked

/-- The loop of `gst_nvstreamdemux_sink_chain_cuda_batch`; `n` is the number of rounds
left. -/
def cudaBatchLoop (surfaceList : List σ) (srcMeta : NvDsBatchMeta) : ℕ → ℕ → Option (List (OutBuffer σ))
  | 0, _ => none
  | n + 1, i =>
    if i < srcMeta.frameMetaList.length then
      match srcMeta.frameMetaList[i]? with
      | none => none
      | some frameMeta =>
        if d.videoReady frameMeta.padIndex then
          match createSharedMemBuf d.numSurfacesPerFrame surfaceList srcMeta i,
            cudaBatchLoop surfaceList srcMeta n (i + d.numSurfacesPerFrame) with
          | some buf, some rest => some ({ buf with pts := frameMeta.bufPts } :: rest)
          | _, _ => none
        else cudaBatchLoop surfaceList srcMeta n (i + d.numSurfacesPerFrame)
    else some []

/-- The loop of `gst_nvstreamdemux_sink_chain_audio_batch`. `frameNumber` is declared
outside of it. -/
def audioBatchLoop (srcMeta : NvDsBatchMeta) : ℕ → ℕ → List (NvBufAudioParams σ) → Option (List (OutBuffer σ))
  | _, _, [] => some []
  | frameNumber, i, audio :: audios =>
    if d.audioReady audio.sourceId then
      match copyFrameMetas srcMeta.frameMetaList i d.numSurfacesPerFrame with
      | none => none
      | some frames =>
        let frameNumber := noteFrameNumber frameNumber frames
        match audioBatchLoop srcMeta frameNumber (i + 1) audios with
        | none => none
        | some rest =>
          some
            ({ streamId := audio.sourceId
               surfaces := [audio.data]
               pts := audio.bufPts
               batchMeta :=
                { frameMetaList := frames
                  batchUserMetaList :=
                    srcMeta.batchUserMetaList.filter (latencyMatches audio.sourceId frameNumber) } } :: rest)
    else audioBatchLoop srcMeta frameNumber (i + 1) audios

/-- The pushes of the audio chain, which an error ends. -/
def pushAudio (flow : OutBuffer σ → GstFlowReturn) : List (OutBuffer σ) → List (OutBuffer σ) × GstFlowReturn
  | [] => ([], .ok)
  | buf :: bufs =>
    if flow buf = .error then ([buf], .error)
    else (buf :: (pushAudio flow bufs).1, (pushAudio flow bufs).2)

/-- `gst_nvstreamdemux_sink_chain_audio_batch`. -/
def sinkChainAudioBatch (flow : OutBuffer σ → GstFlowReturn) (buffer : BatchBuffer σ) : Option (ChainResult σ) :=
  match buffer.batchMeta with
  | none => some ⟨[], [], .error⟩
  | some srcMeta =>
    (d.audioBatchLoop srcMeta 0 0 buffer.audioBuffers).map fun created =>
      ⟨created, (pushAudio flow created).1, (pushAudio flow created).2⟩

/-- `gst_nvstreamdemux_sink_chain_cuda_batch`. -/
def sinkChainCudaBatch (flow : OutBuffer σ → GstFlowReturn) (buffer : BatchBuffer σ) : Option (ChainResult σ) :=
  if d.isAudio then d.sinkChainAudioBatch flow buffer
  else
    match buffer.batchMeta with
    | none => some ⟨[], [], .error⟩
    | some srcMeta =>
      (d.cudaBatchLoop buffer.surfaceList srcMeta (srcMeta.frameMetaList.length + 1) 0).map fun created =>
        ⟨created, created, (created.getLast?.map flow).elim .ok fun ret => if ret = .notLinked then .ok else ret⟩

end NvStreamDemux

end Chain

/-! ### The frame metas of a buffer -/

/-- The copies are the metas at the position, if there are enough of them. -/
theorem copyFrameMetas_eq (frames : List NvDsFrameMeta) (index n : ℕ) :
    copyFrameMetas frames index n =
      if n = 0 ∨ index + n ≤ frames.length then
        some (((frames.drop index).take n).mapIdx fun k src => { src with batchId := k })
      else none := by
  induction n with
  | zero => rfl
  | succ n ih =>
    rw [copyFrameMetas, ih]
    by_cases hn : index + n < frames.length
    · have hat : frames[index + n]? = some frames[index + n] := List.getElem?_eq_getElem hn
      have htake : (frames.drop index).take (n + 1) = (frames.drop index).take n ++ [frames[index + n]] := by
        rw [List.take_add_one, List.getElem?_drop, hat]
        rfl
      have hlen : ((frames.drop index).take n).length = n := by
        rw [List.length_take, List.length_drop]
        omega
      rw [if_pos (by omega), if_pos (by omega), hat, htake, List.mapIdx_append, hlen]
      simp
    · rw [List.getElem?_eq_none (by omega), if_neg (c := n + 1 = 0 ∨ _) (by omega)]
      split <;> simp_all

theorem copyFrameMetas_frameNum {frames copied : List NvDsFrameMeta} {index n : ℕ}
    (h : copyFrameMetas frames index n = some copied) :
    copied.map NvDsFrameMeta.frameNum = ((frames.drop index).take n).map NvDsFrameMeta.frameNum := by
  rw [copyFrameMetas_eq] at h
  split at h
  · cases h
    apply List.ext_getElem?
    intro k
    rw [List.getElem?_map, List.getElem?_mapIdx, List.getElem?_map, Option.map_map]
    rfl
  · cases h

end Demux
end DeepStream
