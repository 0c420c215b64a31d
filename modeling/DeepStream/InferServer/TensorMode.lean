/-
# Tensors that gst-nvinferserver takes from the metadata

`processInputTensor` groups the tensors of a buffer by their `meta_id`, takes the
first regions of interest that are not empty for those of the group, and submits
them in requests of at most `max_batch_size`, each with the slices of the tensors.
`batchInference` attaches options to a request by which custom processing finds
what a region belongs to.

The order in which the map is gone through and what `batchInference` answers are
parameters. The sizes of tensors fit into an `int`. Scale ratios are only copied.
-/
import DeepStream.InferServer.Reorder
import DeepStream.Lib.Chunks
import DeepStream.Lib.Keyed
import DeepStream.Lib.Table
import Mathlib.Data.List.TakeWhile

namespace DeepStream
namespace InferServer
namespace TensorMode

open Std

/-! ### The metadata -/

inductive NvDsDataType where
  | fp32 | uint8 | int8 | uint32 | int32 | fp16
  deriving DecidableEq, Repr

structure NvDsFrameMeta where
  padIndex : ℕ
  batchId : ℕ
  frameNum : ℕ
  deriving DecidableEq, Repr

structure NvDsRoiMeta where
  left : ℕ
  top : ℕ
  width : ℕ
  height : ℕ
  frameMeta : NvDsFrameMeta
  scaleRatioX : ℕ
  scaleRatioY : ℕ
  offsetLeft : ℕ
  offsetTop : ℕ
  objectMeta : Option ℕ
  deriving DecidableEq, Repr

structure NvDsPreProcessTensorMeta where
  rawTensorBuffer : ℕ
  bufferSize : ℕ
  tensorShape : List ℕ
  dataType : NvDsDataType
  tensorName : String
  gpuId : ℕ
  metaId : ℕ
  deriving DecidableEq, Repr

structure GstNvDsPreProcessBatchMeta where
  targetUniqueIds : List ℕ
  tensorMeta : Option NvDsPreProcessTensorMeta
  roiVector : List NvDsRoiMeta
  deriving DecidableEq, Repr

/-- The user metas of a batch; one of another type is skipped. -/
inductive NvDsUserMeta where
  | preProcessBatch (m : GstNvDsPreProcessBatchMeta)
  | other
  deriving DecidableEq, Repr

/-- The width and height of a surface. -/
abbrev SurfaceList := List (ℕ × ℕ)

/-! ### Requests -/

structure InferFrame where
  frameWidth : ℕ
  frameHeight : ℕ
  scaleRatioX : ℕ
  scaleRatioY : ℕ
  offsetLeft : ℕ
  offsetTop : ℕ
  roiLeft : ℕ
  roiTop : ℕ
  roiWidth : ℕ
  roiHeight : ℕ
  objMeta : Option ℕ
  surfParams : ℕ
  roiMeta : NvDsRoiMeta
  frameMeta : NvDsFrameMeta
  frameNum : ℕ
  batchIdx : ℕ
  deriving DecidableEq, Repr

def InferFrame.ofRoi (surfaces : SurfaceList) (iBatch : ℕ) (roi : NvDsRoiMeta) : InferFrame where
  frameWidth := (surfaces.getD roi.frameMeta.batchId (0, 0)).1
  frameHeight := (surfaces.getD roi.frameMeta.batchId (0, 0)).2
  scaleRatioX := roi.scaleRatioX
  scaleRatioY := roi.scaleRatioY
  offsetLeft := roi.offsetLeft
  offsetTop := roi.offsetTop
  roiLeft := roi.left
  roiTop := roi.top
  roiWidth := roi.width
  roiHeight := roi.height
  objMeta := roi.objectMeta
  surfParams := roi.frameMeta.batchId
  roiMeta := roi
  frameMeta := roi.frameMeta
  frameNum := roi.frameMeta.frameNum
  batchIdx := iBatch

structure InferBufferDescription where
  devId : ℕ
  dataType : InferDataType
  dims : List ℕ
  elementSize : ℕ
  name : String
  deriving DecidableEq, Repr

structure RefBatchBuffer where
  bufBase : ℕ
  offset : ℕ
  bufBytes : ℕ
  desc : InferBufferDescription
  batchSize : ℕ
  deriving DecidableEq, Repr

def fromDSType : NvDsDataType → InferDataType
  | .fp32 => .fp32
  | .uint8 => .uint8
  | .int8 => .int8
  | .uint32 => .uint32
  | .int32 => .int32
  | .fp16 => .fp16

def getElementSize : InferDataType → ℕ
  | .int64 | .uint64 => 8
  | .fp32 | .int32 | .uint32 => 4
  | .fp16 | .int16 | .uint16 => 2
  | .int8 | .uint8 | .bool => 1
  | .string => 0

def dimsSize (dims : List ℕ) : ℕ := if dims = [] then 0 else dims.prod

structure Settings where
  uniqueId : ℕ
  maxBatchSize : ℕ
  isFirstDimBatch : Bool
  deriving DecidableEq, Repr

/-! ### Options -/

inductive OptionKey where
  | uniqueId | batchMeta | gstBuffer | timestamp | bufSurface | streamIds | frameMetaList | objMetaList
  | bufSurfaceParamsList
  deriving DecidableEq, Repr

inductive OptionValue where
  | int (n : ℕ)
  | frameMetas (l : List NvDsFrameMeta)
  | objMetas (l : List (Option ℕ))
  | ints (l : List ℕ)
  deriving DecidableEq, Repr

abbrev BufOptions := OptionKey → Option OptionValue

/-- `setValue` and `setValueArray`: what was under the key is overwritten. -/
def setOption (key : OptionKey) (value : OptionValue) (options : BufOptions) : BufOptions :=
  Function.update options key (some value)

/-- What the requests of a buffer have in common. -/
structure BufferArgs where
  batchMeta : ℕ
  gstBuf : Option ℕ
  timestamp : Option ℕ
  inSurf : Option ℕ
  deriving DecidableEq, Repr

def addBatchOptions (cfg : Settings) (args : BufferArgs) (frames : List InferFrame) : BufOptions :=
  let options : BufOptions := fun _ => none
  let options := setOption .uniqueId (.int cfg.uniqueId) options
  let options := setOption .batchMeta (.int args.batchMeta) options
  let options := args.gstBuf.elim options fun buf =>
    let options := setOption .gstBuffer (.int buf) options
    args.timestamp.elim options fun t => setOption .timestamp (.int t) options
  let options := args.inSurf.elim options fun surf => setOption .bufSurface (.int surf) options
  let hasObjs := frames.any (·.objMeta.isSome)
  let options := setOption .streamIds (.ints (frames.map (·.frameMeta.padIndex))) options
  let options := setOption .frameMetaList (.frameMetas (frames.map (·.frameMeta))) options
  let options :=
    if hasObjs then setOption .frameMetaList (.objMetas (frames.map (·.objMeta))) options else options
  setOption .bufSurfaceParamsList (.ints (frames.map (·.surfParams))) options

/-! ### Grouping -/

structure TensorInputBatch where
  batchSize : ℕ := 0
  roiTensors : List RefBatchBuffer := []
  roiFrameList : List (List InferFrame) := []
  deriving DecidableEq, Repr

/-- The tensor and the regions of a meta that is for this element. -/
def take (cfg : Settings) : NvDsUserMeta → Option (NvDsPreProcessTensorMeta × List NvDsRoiMeta)
  | .other => none
  | .preProcessBatch m =>
    if cfg.uniqueId ∉ m.targetUniqueIds then none
    else
      match m.tensorMeta with
      | none => none
      | some t => if t.tensorShape = [] then none else some (t, m.roiVector)

def tensorDesc (cfg : Settings) (t : NvDsPreProcessTensorMeta) : InferBufferDescription where
  devId := t.gpuId
  dataType := fromDSType t.dataType
  dims := if cfg.isFirstDimBatch then t.tensorShape.tail else t.tensorShape
  elementSize := getElementSize (fromDSType t.dataType)
  name := t.tensorName

variable (cfg : Settings) (surfaces : SurfaceList)

/-- A round of the first loop; no result when the batch sizes differ. -/
def TensorInputBatch.add (b : TensorInputBatch) (t : NvDsPreProcessTensorMeta) (rois : List NvDsRoiMeta) :
    Option TensorInputBatch :=
  let batchSize := if cfg.isFirstDimBatch ∧ b.batchSize = 0 then t.tensorShape.headD 0 else b.batchSize
  if cfg.isFirstDimBatch ∧ batchSize ≠ t.tensorShape.headD 0 then none
  else some {
    batchSize := batchSize
    roiFrameList := b.roiFrameList ++ [rois.mapIdx (InferFrame.ofRoi surfaces)]
    roiTensors := b.roiTensors ++ [⟨t.rawTensorBuffer, 0, t.bufferSize, tensorDesc cfg t, batchSize⟩] }

def gatherStep (map : TreeMap ℕ TensorInputBatch) (m : NvDsUserMeta) : Option (TreeMap ℕ TensorInputBatch) :=
  match take cfg m with
  | none => some map
  | some (t, rois) => ((map.getD t.metaId {}).add cfg surfaces t rois).map fun b => map.insert t.metaId b

/-- The first loop; no result when it ends in `NVDSINFER_INVALID_PARAMS`. -/
def gather (metas : List NvDsUserMeta) : Option (TreeMap ℕ TensorInputBatch) :=
  metas.foldlM (gatherStep cfg surfaces) ∅

/-! ### Submitting -/

/-- A call of `batchInference` and its answer. -/
structure Call where
  metaId : ℕ
  frames : List InferFrame
  tensors : List RefBatchBuffer
  options : BufOptions
  status : NvDsInferStatus

/-- The part of a tensor for the regions from `batchIdx` on. -/
def cutTensor (batchIdx batches : ℕ) (t : RefBatchBuffer) : RefBatchBuffer :=
  let batchBytes := dimsSize t.desc.dims * getElementSize t.desc.dataType
  { t with
    bufBase := t.bufBase + batchBytes * batchIdx
    offset := t.offset + batchBytes * batchIdx
    bufBytes := batchBytes * batches
    batchSize := batches }

variable (args : BufferArgs) (metaId : ℕ) (answer : ℕ → NvDsInferStatus)

def batchInference (frames : List InferFrame) (tensors : List RefBatchBuffer) (c : ℕ) : Call where
  metaId := metaId
  frames := frames
  tensors := tensors
  options := addBatchOptions cfg args frames
  status := answer c

/-- The loop over the requests of a group, from the region `batchIdx` on; `c` counts
them and `status` is what the variable holds. The first argument bounds the rounds. -/
def submitLoop (b : TensorInputBatch) (rois : List InferFrame) :
    ℕ → ℕ → ℕ → NvDsInferStatus → List Call × NvDsInferStatus
  | 0, _, _, status => ([], status)
  | rounds + 1, c, batchIdx, status =>
    if batchIdx < b.batchSize then
      let batches := min (b.batchSize - batchIdx) cfg.maxBatchSize
      let call := batchInference cfg args metaId answer ((rois.drop batchIdx).take batches)
        (b.roiTensors.map (cutTensor batchIdx batches)) c
      if call.status ≠ .success then ([call], call.status)
      else
        let r := submitLoop b rois rounds (c + 1) (batchIdx + cfg.maxBatchSize) call.status
        (call :: r.1, r.2)
    else ([], status)

/-- The requests of a group. -/
def submitGroup (b : TensorInputBatch) (rois : List InferFrame) (status : NvDsInferStatus) : List Call × NvDsInferStatus :=
  if cfg.isFirstDimBatch ∧ 0 < cfg.maxBatchSize then submitLoop cfg args metaId answer b rois b.batchSize 0 0 status
  else
    let call := batchInference cfg args metaId answer rois b.roiTensors 0
    ([call], call.status)

/-- The second loop, over the groups. -/
def submitGroups (answer : ℕ → ℕ → NvDsInferStatus) (map : TreeMap ℕ TensorInputBatch) :
    List ℕ → NvDsInferStatus → List Call × NvDsInferStatus
  | [], status => ([], status)
  | metaId :: order, status =>
    let b := map.getD metaId {}
    if b.roiFrameList = [] ∨ b.roiTensors = [] then ([], .success)
    else
      match b.roiFrameList.find? (· ≠ []) with
      | none => ([], .invalidParams)
      | some rois =>
        let r := submitGroup cfg args metaId (answer metaId) b rois status
        let rest := submitGroups answer map order r.2
        (r.1 ++ rest.1, rest.2)

/-- The calls that `processInputTensor` makes, and what it returns. -/
def processInputTensor (metas : List NvDsUserMeta) (answer : ℕ → ℕ → NvDsInferStatus) (order : List ℕ) :
    List Call × NvDsInferStatus :=
  match gather cfg surfaces metas with
  | none => ([], .invalidParams)
  | some map => submitGroups cfg args answer map order .success

/-! ### What the requests should be -/

/-- The tensors of a `meta_id`, with their regions. -/
def takenOf (metas : List NvDsUserMeta) (metaId : ℕ) : List (NvDsPreProcessTensorMeta × List NvDsRoiMeta) :=
  metas.filterMap fun m => (take cfg m).filter (·.1.metaId = metaId)

/-- The frames of the regions of a `meta_id`: the first regions that are not empty. -/
def framesOf (metas : List NvDsUserMeta) (metaId : ℕ) : List InferFrame :=
  (((takenOf cfg metas metaId).find? (·.2 ≠ [])).elim [] fun e => e.2.mapIdx (InferFrame.ofRoi surfaces))

/-- The groups are cut into requests along the first dimension. -/
def Batched : Prop := cfg.isFirstDimBatch ∧ 0 < cfg.maxBatchSize

instance : Decidable (Batched cfg) := inferInstanceAs (Decidable (_ ∧ _))

/-- The bytes of one slice of a tensor. -/
def sliceBytes (t : NvDsPreProcessTensorMeta) : ℕ := t.tensorShape.tail.prod * getElementSize (fromDSType t.dataType)

/-- The slices `[k, k + n)` of a tensor; the whole tensor when it has no batch dimension. -/
def slices (k n : ℕ) (t : NvDsPreProcessTensorMeta) : RefBatchBuffer :=
  if Batched cfg then
    { bufBase := t.rawTensorBuffer + sliceBytes t * k
      offset := sliceBytes t * k
      bufBytes := sliceBytes t * n
      desc := tensorDesc cfg t
      batchSize := n }
  else
    { bufBase := t.rawTensorBuffer
      offset := 0
      bufBytes := t.bufferSize
      desc := tensorDesc cfg t
      batchSize := if cfg.isFirstDimBatch then t.tensorShape.headD 0 else 0 }

/-- The calls from the region `k` on have the slices of their regions. -/
def Described (tensors : List NvDsPreProcessTensorMeta) : ℕ → List Call → Prop
  | _, [] => True
  | k, call :: calls =>
    (Batched cfg → call.frames.length ≤ cfg.maxBatchSize) ∧
      call.tensors = tensors.map (slices cfg k call.frames.length) ∧ Described tensors (k + call.frames.length) calls

/-- The calls of a `meta_id`: up to one that is refused, each region is in one of
them, with its slices. -/
structure Submits (frames : List InferFrame) (tensors : List NvDsPreProcessTensorMeta) (calls : List Call) : Prop where
  inOrder : calls.flatMap Call.frames <+: frames
  all : (∀ call ∈ calls, call.status = .success) → calls.flatMap Call.frames = frames
  slices : Described cfg tensors 0 calls

/-- The options give what the regions belong to. -/
structure OptionsOwn (call : Call) : Prop where
  frameMetas : call.options .frameMetaList = some (.frameMetas (call.frames.map (·.frameMeta)))
  objMetas : (∃ frame ∈ call.frames, frame.objMeta.isSome) →
    call.options .objMetaList = some (.objMetas (call.frames.map (·.objMeta)))
  streamIds : call.options .streamIds = some (.ints (call.frames.map (·.frameMeta.padIndex)))

/-- What the property says of the calls and the result. -/
structure SubmitsRois (metas : List NvDsUserMeta) (r : List Call × NvDsInferStatus) : Prop where
  rois : ∀ metaId, Submits cfg (framesOf cfg surfaces metas metaId) ((takenOf cfg metas metaId).map (·.1))
    (r.1.filter (·.metaId = metaId))
  options : ∀ call ∈ r.1, OptionsOwn call
  success : r.2 = .success → (∀ call ∈ r.1, call.status = .success) ∧
    ∀ metaId, (r.1.filter (·.metaId = metaId)).flatMap Call.frames = framesOf cfg surfaces metas metaId

/-- The requests of a `meta_id`. -/
def chunksOf (metas : List NvDsUserMeta) (metaId : ℕ) : List (List InferFrame) :=
  if Batched cfg then Chunks.chunks cfg.maxBatchSize (framesOf cfg surfaces metas metaId)
  else [framesOf cfg surfaces metas metaId]

/-- No request of the `meta_id` is refused. -/
def Succeeds (metas : List NvDsUserMeta) (answer : ℕ → ℕ → NvDsInferStatus) (metaId : ℕ) : Prop :=
  ∀ i < (chunksOf cfg surfaces metas metaId).length, answer metaId i = .success

/-- When the requests are as they should be. -/
structure Submittable (metas : List NvDsUserMeta) (answer : ℕ → ℕ → NvDsInferStatus) (order : List ℕ) : Prop where
  /-- No `meta_id` with regions comes after one without. -/
  regions : order.Pairwise fun metaId metaId' =>
    framesOf cfg surfaces metas metaId = [] → framesOf cfg surfaces metas metaId' = []
  /-- A tensor that is cut has a dimension besides the batch. -/
  dims : Batched cfg → ∀ metaId ∈ order, framesOf cfg surfaces metas metaId ≠ [] →
    ∀ e ∈ takenOf cfg metas metaId, e.1.tensorShape.tail ≠ []
  /-- A request that is made has no objects. -/
  objects : ∀ metaId ∈ order, ∀ i chunk, (chunksOf cfg surfaces metas metaId)[i]? = some chunk →
    (∀ j < i, answer metaId j = .success) → ∀ frame ∈ chunk, frame.objMeta = none
  /-- When a request is refused, one of the last `meta_id` is. -/
  last : (∀ metaId ∈ order, framesOf cfg surfaces metas metaId ≠ []) →
    (∀ metaId ∈ order.getLast?, Succeeds cfg surfaces metas answer metaId) →
    ∀ metaId ∈ order, Succeeds cfg surfaces metas answer metaId

/-! ### Options -/

variable {cfg surfaces args metaId answer}

theorem optionsOwn_iff (frames : List InferFrame) (tensors : List RefBatchBuffer) (c : ℕ) :
    OptionsOwn (batchInference cfg args metaId answer frames tensors c) ↔ ∀ frame ∈ frames, frame.objMeta = none := by
  constructor
  · intro h frame hframe
    by_contra hobj
    have hany : frames.any (·.objMeta.isSome) = true :=
      List.any_eq_true.mpr ⟨frame, hframe, Option.isSome_iff_ne_none.mpr hobj⟩
    have hkey := h.frameMetas
    simp [batchInference, addBatchOptions, setOption, hany] at hkey
  · intro h
    have hany : frames.any (·.objMeta.isSome) = false := by
      rw [← Bool.not_eq_true, List.any_eq_true]
      rintro ⟨frame, hframe, hobj⟩
      simp [h frame hframe] at hobj
    refine ⟨?_, ?_, ?_⟩
    · simp [batchInference, addBatchOptions, setOption, hany]
    · rintro ⟨frame, hframe, hobj⟩
      have hframe' : frame ∈ frames := hframe
      simp [h frame hframe'] at hobj
    · simp [batchInference, addBatchOptions, setOption, hany]

/-! ### The requests of a group -/

variable (cfg args metaId answer) in
/-- The calls for the chunks of a group, with the tensors for a position and a length. -/
def submitChunks (tensors : ℕ → ℕ → List RefBatchBuffer) :
    List (List InferFrame) → ℕ → ℕ → NvDsInferStatus → List Call × NvDsInferStatus
  | [], _, _, status => ([], status)
  | chunk :: chunks, c, k, _ =>
    let call := batchInference cfg args metaId answer chunk (tensors k chunk.length) c
    if call.status ≠ .success then ([call], call.status)
    else
      let r := submitChunks tensors chunks (c + 1) (k + chunk.length) call.status
      (call :: r.1, r.2)

variable {tensors : ℕ → ℕ → List RefBatchBuffer}

/-- The loop over positions goes over the chunks. -/
theorem submitLoop_eq {b : TensorInputBatch} {rois : List InferFrame} (hsize : b.batchSize = rois.length)
    (hmax : 0 < cfg.maxBatchSize) : ∀ (rounds c k : ℕ) (status : NvDsInferStatus), rois.length ≤ k + rounds →
      submitLoop cfg args metaId answer b rois rounds c k status =
        submitChunks cfg args metaId answer (fun k n => b.roiTensors.map (cutTensor k n))
          (Chunks.chunks cfg.maxBatchSize (rois.drop k)) c k status
  | 0, c, k, status, hle => by
    rw [List.drop_eq_nil_of_le (by omega)]
    rfl
  | rounds + 1, c, k, status, hle => by
    rw [submitLoop]
    by_cases hk : k < b.batchSize
    · have hne : rois.drop k ≠ [] := by
        intro hnil
        have := List.drop_eq_nil_iff.mp hnil
        omega
      have hlen : (rois.drop k).length = b.batchSize - k := by rw [List.length_drop, hsize]
      have htake : (rois.drop k).take (min (b.batchSize - k) cfg.maxBatchSize) = (rois.drop k).take cfg.maxBatchSize := by
        rw [← hlen, List.take_eq_take_iff]
        omega
      have hchunk : ((rois.drop k).take cfg.maxBatchSize).length = min (b.batchSize - k) cfg.maxBatchSize := by
        rw [List.length_take, hlen, Nat.min_comm]
      rw [if_pos hk, Chunks.chunks_eq_take hmax hne, submitChunks]
      dsimp only
      rw [htake, hchunk]
      have hrest : submitLoop cfg args metaId answer b rois rounds (c + 1) (k + cfg.maxBatchSize) (answer c) =
          submitChunks cfg args metaId answer (fun k n => b.roiTensors.map (cutTensor k n))
            (Chunks.chunks cfg.maxBatchSize ((rois.drop k).drop cfg.maxBatchSize)) (c + 1)
            (k + min (b.batchSize - k) cfg.maxBatchSize) (answer c) := by
        rw [submitLoop_eq hsize hmax rounds (c + 1) (k + cfg.maxBatchSize) (answer c) (by omega), List.drop_drop]
        by_cases hfull : cfg.maxBatchSize ≤ b.batchSize - k
        · rw [Nat.min_eq_right hfull]
        · rw [List.drop_eq_nil_of_le (by omega)]
          rfl
      rw [show (batchInference cfg args metaId answer ((rois.drop k).take cfg.maxBatchSize)
        (b.roiTensors.map (cutTensor k (min (b.batchSize - k) cfg.maxBatchSize))) c).status = answer c from rfl, hrest]
    · rw [if_neg hk, List.drop_eq_nil_of_le (by omega)]
      rfl

theorem metaId_of_mem_submitChunks : ∀ (chunks : List (List InferFrame)) (c k : ℕ) (status : NvDsInferStatus),
    ∀ call ∈ (submitChunks cfg args metaId answer tensors chunks c k status).1, call.metaId = metaId
  | [], _, _, _, call, h => by cases h
  | chunk :: chunks, c, k, status, call, h => by
    rw [submitChunks] at h
    dsimp only at h
    split at h
    · rw [List.mem_singleton.mp h]
      rfl
    · rcases List.mem_cons.mp h with rfl | h
      · rfl
      · exact metaId_of_mem_submitChunks chunks _ _ _ call h

/-- The requests are accepted up to the first that is refused. -/
theorem submitChunks_success : ∀ (chunks : List (List InferFrame)) (c k : ℕ) (status : NvDsInferStatus),
    chunks ≠ [] ∨ status = .success →
      ((submitChunks cfg args metaId answer tensors chunks c k status).2 = .success ↔
        ∀ i < chunks.length, answer (c + i) = .success)
  | [], c, k, status, h => by
    rcases h with h | h
    · exact absurd rfl h
    · simp [submitChunks, h]
  | chunk :: chunks, c, k, status, _ => by
    have hcall : (batchInference cfg args metaId answer chunk (tensors k chunk.length) c).status = answer c := rfl
    rw [submitChunks, hcall]
    dsimp only
    by_cases hc : answer c = .success
    · rw [if_neg (by simp [hc])]
      dsimp only
      rw [submitChunks_success chunks _ _ _ (.inr hc)]
      constructor
      · intro h i hi
        rcases i with _ | i
        · exact hc
        · rw [show c + (i + 1) = c + 1 + i by omega]
          exact h i (by simpa using hi)
      · intro h i hi
        rw [show c + 1 + i = c + (i + 1) by omega]
        exact h (i + 1) (by simpa using hi)
    · rw [if_pos hc]
      exact iff_of_false hc fun h => hc (h 0 (by simp))

theorem submitChunks_accepted : ∀ (chunks : List (List InferFrame)) (c k : ℕ) (status : NvDsInferStatus),
    chunks ≠ [] ∨ status = .success →
      (∀ call ∈ (submitChunks cfg args metaId answer tensors chunks c k status).1, call.status = .success) →
      (submitChunks cfg args metaId answer tensors chunks c k status).2 = .success
  | [], c, k, status, h, _ => by
    rcases h with h | h
    · exact absurd rfl h
    · exact h
  | chunk :: chunks, c, k, status, _, hall => by
    have hcall : (batchInference cfg args metaId answer chunk (tensors k chunk.length) c).status = answer c := rfl
    rw [submitChunks, hcall] at hall ⊢
    dsimp only at hall ⊢
    by_cases hc : answer c = .success
    · rw [if_neg (by simp [hc])] at hall ⊢
      exact submitChunks_accepted chunks _ _ _ (.inr hc) (List.forall_mem_cons.mp hall).2
    · rw [if_pos hc] at hall
      exact absurd (hall _ (List.mem_singleton.mpr rfl)) hc

/-- When none is refused, all chunks are submitted. -/
theorem submitChunks_all : ∀ (chunks : List (List InferFrame)) (c k : ℕ) (status : NvDsInferStatus),
    (∀ i < chunks.length, answer (c + i) = .success) →
      (∀ call ∈ (submitChunks cfg args metaId answer tensors chunks c k status).1, call.status = .success) ∧
      (submitChunks cfg args metaId answer tensors chunks c k status).1.flatMap Call.frames = chunks.flatten
  | [], c, k, status, _ => ⟨fun call h => (by cases h), rfl⟩
  | chunk :: chunks, c, k, status, h => by
    have hc : answer c = .success := h 0 (by simp)
    have hcall : (batchInference cfg args metaId answer chunk (tensors k chunk.length) c).status = answer c := rfl
    rw [submitChunks, hcall]
    dsimp only
    rw [if_neg (by simp [hc])]
    obtain ⟨hall, hframes⟩ := submitChunks_all chunks (c + 1) (k + chunk.length) (answer c) fun i hi => by
      rw [show c + 1 + i = c + (i + 1) by omega]
      exact h (i + 1) (by simpa using hi)
    constructor
    · intro call hmem
      rcases List.mem_cons.mp hmem with rfl | hmem
      · exact hc
      · exact hall call hmem
    · rw [List.flatMap_cons, hframes, List.flatten_cons]
      rfl

/-- The calls that are made: those of the chunks before which none is refused. -/
theorem forall_mem_submitChunks {P : Call → Prop} {Q : List InferFrame → Prop}
    (hP : ∀ (frames : List InferFrame) (ts : List RefBatchBuffer) (c : ℕ),
      P (batchInference cfg args metaId answer frames ts c) ↔ Q frames) :
    ∀ (chunks : List (List InferFrame)) (c k : ℕ) (status : NvDsInferStatus),
      (∀ call ∈ (submitChunks cfg args metaId answer tensors chunks c k status).1, P call) ↔
        ∀ i chunk, chunks[i]? = some chunk → (∀ j < i, answer (c + j) = .success) → Q chunk
  | [], c, k, status => by simp [submitChunks]
  | chunk :: chunks, c, k, status => by
    have hcall : (batchInference cfg args metaId answer chunk (tensors k chunk.length) c).status = answer c := rfl
    rw [submitChunks, hcall]
    dsimp only
    by_cases hc : answer c = .success
    · rw [if_neg (by simp [hc]), List.forall_mem_cons, hP, forall_mem_submitChunks hP chunks]
      constructor
      · rintro ⟨h0, h⟩ i chunk' hi hreached
        rcases i with _ | i
        · obtain rfl : chunk = chunk' := by simpa using hi
          exact h0
        · refine h i chunk' (by simpa using hi) fun j hj => ?_
          rw [show c + 1 + j = c + (j + 1) by omega]
          exact hreached (j + 1) (by omega)
      · intro h
        refine ⟨h 0 chunk rfl fun j hj => absurd hj (Nat.not_lt_zero j), fun i chunk' hi hreached => ?_⟩
        refine h (i + 1) chunk' (by simpa using hi) fun j hj => ?_
        rcases j with _ | j
        · exact hc
        · rw [show c + (j + 1) = c + 1 + j by omega]
          exact hreached j (by omega)
    · rw [if_pos hc, List.forall_mem_singleton, hP]
      constructor
      · rintro h0 i chunk' hi hreached
        rcases i with _ | i
        · obtain rfl : chunk = chunk' := by simpa using hi
          exact h0
        · exact absurd (hreached 0 (Nat.succ_pos i)) hc
      · intro h
        exact h 0 chunk rfl fun j hj => absurd hj (Nat.not_lt_zero j)

theorem frames_submitChunks_initial : ∀ (chunks : List (List InferFrame)) (c k : ℕ) (status : NvDsInferStatus),
    (submitChunks cfg args metaId answer tensors chunks c k status).1.flatMap Call.frames <+: chunks.flatten
  | [], c, k, status => List.prefix_refl _
  | chunk :: chunks, c, k, status => by
    rw [submitChunks, List.flatten_cons]
    dsimp only
    split
    · rw [List.flatMap_singleton]
      exact List.prefix_append _ _
    · rw [List.flatMap_cons]
      exact (List.prefix_append_right_inj _).mpr (frames_submitChunks_initial chunks _ _ _)

/-- The calls have the slices if the tensors for a position and a length are those. -/
theorem described_submitChunks {ts : List NvDsPreProcessTensorMeta}
    (hts : ∀ k n, tensors k n = ts.map (slices cfg k n)) :
    ∀ (chunks : List (List InferFrame)) (c k : ℕ) (status : NvDsInferStatus),
      (Batched cfg → ∀ chunk ∈ chunks, chunk.length ≤ cfg.maxBatchSize) →
      Described cfg ts k (submitChunks cfg args metaId answer tensors chunks c k status).1
  | [], c, k, status, _ => trivial
  | chunk :: chunks, c, k, status, hle => by
    rw [submitChunks]
    dsimp only
    have hhead : Batched cfg → chunk.length ≤ cfg.maxBatchSize := fun hb => hle hb chunk List.mem_cons_self
    split
    · exact ⟨hhead, hts k _, trivial⟩
    · exact ⟨hhead, hts k _, described_submitChunks hts chunks _ _ _ fun hb c hc => hle hb c (List.mem_cons_of_mem _ hc)⟩

/-! ### What is gathered -/

/-- The whole tensor of a meta. -/
def wholeTensor (cfg : Settings) (t : NvDsPreProcessTensorMeta) : RefBatchBuffer :=
  ⟨t.rawTensorBuffer, 0, t.bufferSize, tensorDesc cfg t, if cfg.isFirstDimBatch then t.tensorShape.headD 0 else 0⟩

/-- A group holds the tensors and regions that are taken for it. -/
structure TensorInputBatch.Gathers (cfg : Settings) (surfaces : SurfaceList) (b : TensorInputBatch)
    (taken : List (NvDsPreProcessTensorMeta × List NvDsRoiMeta)) : Prop where
  batchSize : (cfg.isFirstDimBatch = false → b.batchSize = 0) ∧
    (cfg.isFirstDimBatch → ∀ e ∈ taken.getLast?, b.batchSize = e.1.tensorShape.headD 0)
  roiTensors : b.roiTensors = taken.map fun e => wholeTensor cfg e.1
  roiFrameList : b.roiFrameList = taken.map fun e => e.2.mapIdx (InferFrame.ofRoi surfaces)

theorem TensorInputBatch.Gathers.add {b b' : TensorInputBatch}
    {taken : List (NvDsPreProcessTensorMeta × List NvDsRoiMeta)} (h : b.Gathers cfg surfaces taken)
    {t : NvDsPreProcessTensorMeta} {rois : List NvDsRoiMeta} (hb : b.add cfg surfaces t rois = some b') :
    b'.Gathers cfg surfaces (taken ++ [(t, rois)]) := by
  unfold TensorInputBatch.add at hb
  dsimp only at hb
  by_cases hfirst : cfg.isFirstDimBatch
  · have hsize : (if cfg.isFirstDimBatch = true ∧ b.batchSize = 0 then t.tensorShape.headD 0 else b.batchSize) =
        t.tensorShape.headD 0 := by
      by_contra hne
      rw [if_pos ⟨hfirst, hne⟩] at hb
      cases hb
    rw [hsize, if_neg fun hc => hc.2 rfl] at hb
    obtain rfl := Option.some.inj hb
    constructor
    · exact ⟨fun hno => absurd hfirst (by simp [hno]), fun _ e he => by simp at he; rw [← he]⟩
    · rw [List.map_append, ← h.roiTensors]
      simp [wholeTensor, hfirst]
    · rw [List.map_append, ← h.roiFrameList]
      rfl
  · have hno : cfg.isFirstDimBatch = false := by simpa using hfirst
    rw [if_neg (fun hc => hfirst hc.1), if_neg (fun hc => hfirst hc.1)] at hb
    obtain rfl := Option.some.inj hb
    constructor
    · exact ⟨fun _ => h.batchSize.1 hno, fun hyes => absurd hyes hfirst⟩
    · rw [List.map_append, ← h.roiTensors]
      simp [wholeTensor, hno, h.batchSize.1 hno]
    · rw [List.map_append, ← h.roiFrameList]
      rfl

theorem takenOf_singleton (m : NvDsUserMeta) (metaId : ℕ) :
    takenOf cfg [m] metaId = ((take cfg m).filter (·.1.metaId = metaId)).toList := by
  unfold takenOf
  rw [List.filterMap_cons, List.filterMap_nil]
  rcases (take cfg m).filter (·.1.metaId = metaId) with _ | e <;> rfl

/-- The map holds what is taken, for every `meta_id`. -/
structure Gathered (cfg : Settings) (surfaces : SurfaceList)
    (taken : ℕ → List (NvDsPreProcessTensorMeta × List NvDsRoiMeta)) (map : TreeMap ℕ TensorInputBatch) : Prop where
  mem : ∀ metaId, metaId ∈ map ↔ taken metaId ≠ []
  group : ∀ metaId, (map.getD metaId {}).Gathers cfg surfaces (taken metaId)

theorem Gathered.step {taken : ℕ → List (NvDsPreProcessTensorMeta × List NvDsRoiMeta)}
    {map map' : TreeMap ℕ TensorInputBatch} {m : NvDsUserMeta} (h : Gathered cfg surfaces taken map)
    (hm : gatherStep cfg surfaces map m = some map') :
    Gathered cfg surfaces (fun metaId => taken metaId ++ takenOf cfg [m] metaId) map' := by
  unfold gatherStep at hm
  rcases htake : take cfg m with _ | ⟨t, rois⟩
  · rw [htake] at hm
    obtain rfl := Option.some.inj hm
    have hnone : ∀ metaId, takenOf cfg [m] metaId = [] := fun metaId => by
      rw [takenOf_singleton, htake]
      rfl
    simp only [hnone, List.append_nil]
    exact h
  · rw [htake] at hm
    obtain ⟨b, hb, rfl⟩ := Option.map_eq_some_iff.mp hm
    have hgroup := (h.group t.metaId).add hb
    have htaken : ∀ metaId, takenOf cfg [m] metaId = if t.metaId = metaId then [(t, rois)] else [] := by
      intro metaId
      rw [takenOf_singleton, htake]
      by_cases he : t.metaId = metaId
      · simp [he]
      · simp [he]
    constructor
    · intro metaId
      rw [TreeMap.mem_insert, htaken, h.mem]
      by_cases he : t.metaId = metaId
      · simp [he]
      · simp [he]
    · intro metaId
      rw [TreeMap.getD_insert, htaken]
      by_cases he : t.metaId = metaId
      · subst he
        simpa using hgroup
      · simpa [he] using h.group metaId

theorem gather_gathered (metas : List NvDsUserMeta) :
    ∀ {map : TreeMap ℕ TensorInputBatch}, gather cfg surfaces metas = some map →
      Gathered cfg surfaces (takenOf cfg metas) map := by
  induction metas using List.reverseRecOn with
  | nil =>
    intro map h
    obtain rfl := Option.some.inj h
    refine ⟨fun metaId => by simp [takenOf], fun metaId => ?_⟩
    constructor <;> simp [takenOf]
  | append_singleton metas m ih =>
    intro map h
    rw [gather, List.foldlM_append] at h
    obtain ⟨map₀, h₀, h₁⟩ := Option.bind_eq_some_iff.mp h
    have hstep : gatherStep cfg surfaces map₀ m = some map := by simpa using h₁
    have hg := (ih h₀).step hstep
    have htaken : takenOf cfg (metas ++ [m]) = fun metaId => takenOf cfg metas metaId ++ takenOf cfg [m] metaId :=
      funext fun metaId => List.filterMap_append
    rwa [htaken]

/-- The regions of a group are the first that are not empty. -/
theorem find?_roiFrameList {b : TensorInputBatch} {metas : List NvDsUserMeta} {metaId : ℕ}
    (h : b.Gathers cfg surfaces (takenOf cfg metas metaId)) :
    b.roiFrameList.find? (· ≠ []) =
      if framesOf cfg surfaces metas metaId = [] then none else some (framesOf cfg surfaces metas metaId) := by
  have hp : (fun e : NvDsPreProcessTensorMeta × List NvDsRoiMeta =>
      decide (e.2.mapIdx (InferFrame.ofRoi surfaces) ≠ [])) = fun e => decide (e.2 ≠ []) := by
    funext e
    simp
  unfold framesOf
  rw [h.roiFrameList, List.find?_map]
  show ((takenOf cfg metas metaId).find? fun e => decide (e.2.mapIdx (InferFrame.ofRoi surfaces) ≠ [])).map _ = _
  rw [hp]
  rcases hfind : (takenOf cfg metas metaId).find? fun e => decide (e.2 ≠ []) with _ | e
  · rw [hfind]
    rfl
  · have hne : e.2 ≠ [] := by simpa using List.find?_some hfind
    rw [hfind]
    simp [hne]

/-! ### The groups -/

/-- The assertion of `processInputTensor`: a batch of a group has one slice for each region. -/
def Sized (cfg : Settings) (surfaces : SurfaceList) (metas : List NvDsUserMeta) : Prop :=
  Batched cfg → ∀ metaId, framesOf cfg surfaces metas metaId ≠ [] →
    ∀ e ∈ takenOf cfg metas metaId, e.1.tensorShape.headD 0 = (framesOf cfg surfaces metas metaId).length

/-- What a request gets of a tensor. -/
def requestTensor (cfg : Settings) (k n : ℕ) (t : NvDsPreProcessTensorMeta) : RefBatchBuffer :=
  if Batched cfg then cutTensor k n (wholeTensor cfg t) else wholeTensor cfg t

theorem requestTensor_eq_slices {k n : ℕ} {t : NvDsPreProcessTensorMeta} (h : Batched cfg → t.tensorShape.tail ≠ []) :
    requestTensor cfg k n t = slices cfg k n t := by
  unfold requestTensor slices
  by_cases hb : Batched cfg
  · have hdims : dimsSize (tensorDesc cfg t).dims = t.tensorShape.tail.prod := by
      have hfirst : cfg.isFirstDimBatch = true := hb.1
      simp [tensorDesc, dimsSize, hfirst, h hb]
    rw [if_pos hb, if_pos hb]
    simp only [cutTensor, wholeTensor, hdims, Nat.zero_add]
    rfl
  · rw [if_neg hb, if_neg hb]
    rfl

/-- A tensor without other dimensions is cut into nothing. -/
theorem requestTensor_ne_slices {k n : ℕ} {t : NvDsPreProcessTensorMeta} (hb : Batched cfg) (hn : 0 < n)
    (h : t.tensorShape.tail = []) : requestTensor cfg k n t ≠ slices cfg k n t := by
  intro heq
  have hbytes := congrArg RefBatchBuffer.bufBytes heq
  have hdims : dimsSize (tensorDesc cfg t).dims = 0 := by
    have hfirst : cfg.isFirstDimBatch = true := hb.1
    simp [tensorDesc, dimsSize, hfirst, h]
  have hsize : 0 < getElementSize (fromDSType t.dataType) := by
    cases t.dataType <;> decide
  have hpos : 0 < sliceBytes t * n := by
    unfold sliceBytes
    rw [h, List.prod_nil, Nat.one_mul]
    exact Nat.mul_pos hsize hn
  have hzero : (requestTensor cfg k n t).bufBytes = 0 := by
    rw [requestTensor, if_pos hb]
    simp [cutTensor, wholeTensor, hdims]
  have hslices : (slices cfg k n t).bufBytes = sliceBytes t * n := by
    rw [slices, if_pos hb]
  omega

variable (cfg surfaces args) in
/-- The requests for a `meta_id` with regions. -/
def requestsOf (metas : List NvDsUserMeta) (answer : ℕ → ℕ → NvDsInferStatus) (metaId : ℕ) : List Call × NvDsInferStatus :=
  submitChunks cfg args metaId (answer metaId)
    (fun k n => ((takenOf cfg metas metaId).map (·.1)).map (requestTensor cfg k n))
    (chunksOf cfg surfaces metas metaId) 0 0 .success

variable {metas : List NvDsUserMeta}

theorem flatten_chunksOf (metaId : ℕ) :
    (chunksOf cfg surfaces metas metaId).flatten = framesOf cfg surfaces metas metaId := by
  unfold chunksOf
  split
  · exact Chunks.flatten_chunks _
  · exact List.flatten_singleton

theorem chunksOf_ne_nil {metaId : ℕ} (h : framesOf cfg surfaces metas metaId ≠ []) :
    chunksOf cfg surfaces metas metaId ≠ [] := by
  intro hnil
  rw [← flatten_chunksOf, hnil] at h
  exact h rfl

theorem ne_nil_of_mem_chunksOf {metaId : ℕ} (h : framesOf cfg surfaces metas metaId ≠ []) :
    ∀ chunk ∈ chunksOf cfg surfaces metas metaId, chunk ≠ [] := by
  intro chunk hchunk
  unfold chunksOf at hchunk
  split at hchunk
  · rename_i hb
    exact Chunks.ne_nil_of_mem hb.2 hchunk
  · rw [List.mem_singleton.mp hchunk]
    exact h

/-- What the variable held does not matter to a group. -/
theorem submitChunks_status {chunks : List (List InferFrame)} (h : chunks ≠ []) (c k : ℕ) (status status' : NvDsInferStatus) :
    submitChunks cfg args metaId answer tensors chunks c k status =
      submitChunks cfg args metaId answer tensors chunks c k status' := by
  rcases chunks with _ | ⟨chunk, chunks⟩
  · exact absurd rfl h
  · rfl

theorem submitGroup_eq {answer : ℕ → ℕ → NvDsInferStatus} {b : TensorInputBatch} {metaId : ℕ}
    (h : b.Gathers cfg surfaces (takenOf cfg metas metaId)) (hsized : Sized cfg surfaces metas)
    (hne : framesOf cfg surfaces metas metaId ≠ []) (status : NvDsInferStatus) :
    submitGroup cfg args metaId (answer metaId) b (framesOf cfg surfaces metas metaId) status =
      requestsOf cfg surfaces args metas answer metaId := by
  unfold submitGroup requestsOf
  rw [submitChunks_status (chunksOf_ne_nil hne) 0 0 .success status]
  by_cases hb : Batched cfg
  · have htaken : takenOf cfg metas metaId ≠ [] := by
      intro hnil
      exact hne (by simp [framesOf, hnil])
    have hsize : b.batchSize = (framesOf cfg surfaces metas metaId).length := by
      have hlast := List.getLast?_eq_some_getLast htaken
      rw [h.batchSize.2 hb.1 _ hlast]
      exact hsized hb metaId hne _ (List.getLast_mem htaken)
    have hb' : cfg.isFirstDimBatch = true ∧ 0 < cfg.maxBatchSize := hb
    rw [if_pos hb', submitLoop_eq hsize hb.2 _ _ _ _ (by omega), List.drop_zero, chunksOf, if_pos hb, h.roiTensors]
    congr 1
    funext k n
    simp [requestTensor, hb]
  · have hb' : ¬ (cfg.isFirstDimBatch = true ∧ 0 < cfg.maxBatchSize) := hb
    rw [if_neg hb', chunksOf, if_neg hb, h.roiTensors]
    have hwhole : requestTensor cfg 0 (framesOf cfg surfaces metas metaId).length = wholeTensor cfg :=
      funext fun t => if_neg hb
    simp only [submitChunks, hwhole, List.map_map, ite_self]
    rfl

/-- The groups are gone through up to one that has no regions. -/
theorem submitGroups_eq {answer : ℕ → ℕ → NvDsInferStatus} {map : TreeMap ℕ TensorInputBatch}
    (h : Gathered cfg surfaces (takenOf cfg metas) map) (hsized : Sized cfg surfaces metas) :
    ∀ (order : List ℕ) (status : NvDsInferStatus), (∀ metaId ∈ order, metaId ∈ map) →
      (submitGroups cfg args answer map order status).1 =
        (order.takeWhile (framesOf cfg surfaces metas · ≠ [])).flatMap
          fun metaId => (requestsOf cfg surfaces args metas answer metaId).1
  | [], status, _ => rfl
  | metaId :: order, status, hmem => by
    have htaken : takenOf cfg metas metaId ≠ [] := (h.mem metaId).mp (hmem metaId List.mem_cons_self)
    have hgroup := h.group metaId
    have hsome : ¬ ((map.getD metaId {}).roiFrameList = [] ∨ (map.getD metaId {}).roiTensors = []) := by
      rw [hgroup.roiFrameList, hgroup.roiTensors, List.map_eq_nil_iff, List.map_eq_nil_iff]
      simpa using htaken
    rw [submitGroups]
    dsimp only
    rw [if_neg hsome, find?_roiFrameList hgroup]
    by_cases hframes : framesOf cfg surfaces metas metaId = []
    · rw [if_pos hframes, List.takeWhile_cons_of_neg (by simpa using hframes)]
      rfl
    · rw [if_neg hframes, List.takeWhile_cons_of_pos (by simpa using hframes), List.flatMap_cons]
      dsimp only
      rw [submitGroup_eq hgroup hsized hframes,
        submitGroups_eq h hsized order _ fun metaId' h' => hmem metaId' (List.mem_cons_of_mem _ h')]

/-- The result is that of the last group, when all have regions. -/
theorem submitGroups_status {answer : ℕ → ℕ → NvDsInferStatus} {map : TreeMap ℕ TensorInputBatch}
    (h : Gathered cfg surfaces (takenOf cfg metas) map) (hsized : Sized cfg surfaces metas) :
    ∀ (order : List ℕ) (status : NvDsInferStatus), (∀ metaId ∈ order, metaId ∈ map) →
      ((submitGroups cfg args answer map order status).2 = .success ↔
        (∀ metaId ∈ order, framesOf cfg surfaces metas metaId ≠ []) ∧
          order.getLast?.elim status (fun metaId => (requestsOf cfg surfaces args metas answer metaId).2) = .success)
  | [], status, _ => by simp [submitGroups]
  | metaId :: order, status, hmem => by
    have htaken : takenOf cfg metas metaId ≠ [] := (h.mem metaId).mp (hmem metaId List.mem_cons_self)
    have hgroup := h.group metaId
    have hsome : ¬ ((map.getD metaId {}).roiFrameList = [] ∨ (map.getD metaId {}).roiTensors = []) := by
      rw [hgroup.roiFrameList, hgroup.roiTensors, List.map_eq_nil_iff, List.map_eq_nil_iff]
      simpa using htaken
    rw [submitGroups]
    dsimp only
    rw [if_neg hsome, find?_roiFrameList hgroup]
    by_cases hframes : framesOf cfg surfaces metas metaId = []
    · rw [if_pos hframes]
      exact iff_of_false (fun hs => by cases hs) fun hall => hall.1 metaId List.mem_cons_self hframes
    · rw [if_neg hframes]
      dsimp only
      rw [submitGroup_eq hgroup hsized hframes,
        submitGroups_status h hsized order _ fun metaId' h' => hmem metaId' (List.mem_cons_of_mem _ h'),
        List.forall_mem_cons]
      have hlast : order.getLast?.elim (requestsOf cfg surfaces args metas answer metaId).2
          (fun metaId => (requestsOf cfg surfaces args metas answer metaId).2) =
          (metaId :: order).getLast?.elim status fun metaId => (requestsOf cfg surfaces args metas answer metaId).2 := by
        rcases order with _ | ⟨metaId', order⟩
        · rfl
        · rw [List.getLast?_cons_cons]
          rcases hget : (metaId' :: order).getLast? with _ | last
          · simp at hget
          · rfl
      rw [hlast]
      exact ⟨fun hall => ⟨⟨hframes, hall.1⟩, hall.2⟩, fun hall => ⟨hall.1.2, hall.2⟩⟩

/-! ### The calls of a group -/

theorem metaId_of_mem_requestsOf (answer : ℕ → ℕ → NvDsInferStatus) (metaId : ℕ) :
    ∀ call ∈ (requestsOf cfg surfaces args metas answer metaId).1, call.metaId = metaId :=
  metaId_of_mem_submitChunks _ _ _ _

theorem options_requestsOf (answer : ℕ → ℕ → NvDsInferStatus) (metaId : ℕ) :
    (∀ call ∈ (requestsOf cfg surfaces args metas answer metaId).1, OptionsOwn call) ↔
      ∀ i chunk, (chunksOf cfg surfaces metas metaId)[i]? = some chunk → (∀ j < i, answer metaId j = .success) →
        ∀ frame ∈ chunk, frame.objMeta = none := by
  unfold requestsOf
  rw [forall_mem_submitChunks optionsOwn_iff]
  simp only [Nat.zero_add]

theorem succeeds_iff {metaId : ℕ} (answer : ℕ → ℕ → NvDsInferStatus)
    (h : framesOf cfg surfaces metas metaId ≠ []) :
    (requestsOf cfg surfaces args metas answer metaId).2 = .success ↔ Succeeds cfg surfaces metas answer metaId := by
  unfold requestsOf Succeeds
  rw [submitChunks_success _ _ _ _ (.inl (chunksOf_ne_nil h))]
  simp

theorem requestsOf_all {metaId : ℕ} {answer : ℕ → ℕ → NvDsInferStatus} (h : Succeeds cfg surfaces metas answer metaId) :
    (∀ call ∈ (requestsOf cfg surfaces args metas answer metaId).1, call.status = .success) ∧
      (requestsOf cfg surfaces args metas answer metaId).1.flatMap Call.frames = framesOf cfg surfaces metas metaId := by
  rw [← flatten_chunksOf]
  refine submitChunks_all _ _ _ _ fun i hi => ?_
  rw [Nat.zero_add]
  exact h i hi

theorem succeeds_of_calls {metaId : ℕ} {answer : ℕ → ℕ → NvDsInferStatus} (h : framesOf cfg surfaces metas metaId ≠ [])
    (hall : ∀ call ∈ (requestsOf cfg surfaces args metas answer metaId).1, call.status = .success) :
    Succeeds cfg surfaces metas answer metaId :=
  (succeeds_iff answer h).mp (submitChunks_accepted _ _ _ _ (.inl (chunksOf_ne_nil h)) hall)

theorem submits_of_dims {metaId : ℕ} (answer : ℕ → ℕ → NvDsInferStatus) (h : framesOf cfg surfaces metas metaId ≠ [])
    (hdims : Batched cfg → ∀ e ∈ takenOf cfg metas metaId, e.1.tensorShape.tail ≠ []) :
    Submits cfg (framesOf cfg surfaces metas metaId) ((takenOf cfg metas metaId).map (·.1))
      (requestsOf cfg surfaces args metas answer metaId).1 := by
  constructor
  · rw [← flatten_chunksOf]
    exact frames_submitChunks_initial _ _ _ _
  · intro hall
    exact (requestsOf_all (succeeds_of_calls h hall)).2
  · have hts : ∀ k n, ((takenOf cfg metas metaId).map (·.1)).map (requestTensor cfg k n) =
        ((takenOf cfg metas metaId).map (·.1)).map (slices cfg k n) := by
      intro k n
      refine List.map_congr_left fun t ht => requestTensor_eq_slices fun hb => ?_
      obtain ⟨e, he, rfl⟩ := List.mem_map.mp ht
      exact hdims hb e he
    refine described_submitChunks hts _ _ _ _ fun hb chunk hchunk => ?_
    rw [chunksOf, if_pos hb] at hchunk
    exact Chunks.length_le_of_mem hb.2 hchunk

/-- The first request of a group shows which tensors are cut into nothing. -/
theorem dims_of_submits {metaId : ℕ} {answer : ℕ → ℕ → NvDsInferStatus} (h : framesOf cfg surfaces metas metaId ≠ [])
    (hs : Submits cfg (framesOf cfg surfaces metas metaId) ((takenOf cfg metas metaId).map (·.1))
      (requestsOf cfg surfaces args metas answer metaId).1) (hb : Batched cfg) :
    ∀ e ∈ takenOf cfg metas metaId, e.1.tensorShape.tail ≠ [] := by
  intro e he htail
  obtain ⟨chunk, chunks, hchunks⟩ := List.exists_cons_of_ne_nil (chunksOf_ne_nil h)
  have hpos : 0 < chunk.length := by
    refine List.length_pos_iff.mpr (ne_nil_of_mem_chunksOf h chunk ?_)
    rw [hchunks]
    exact List.mem_cons_self
  obtain ⟨rest, hcalls⟩ : ∃ rest, (requestsOf cfg surfaces args metas answer metaId).1 =
      batchInference cfg args metaId (answer metaId) chunk
        (((takenOf cfg metas metaId).map (·.1)).map (requestTensor cfg 0 chunk.length)) 0 :: rest := by
    rw [requestsOf, hchunks, submitChunks]
    dsimp only
    split
    · exact ⟨[], rfl⟩
    · exact ⟨_, rfl⟩
  have hdesc := hs.slices
  rw [hcalls] at hdesc
  have heq := List.map_inj_left.mp hdesc.2.1 e.1 (List.mem_map.mpr ⟨e, he, rfl⟩)
  exact requestTensor_ne_slices hb hpos htail heq

/-! ### The property -/

theorem mem_of_mem_takeWhile {metaId : ℕ} {order : List ℕ}
    (h : metaId ∈ order.takeWhile (framesOf cfg surfaces metas · ≠ [])) :
    metaId ∈ order ∧ framesOf cfg surfaces metas metaId ≠ [] :=
  ⟨(List.takeWhile_sublist _).subset h, by simpa using List.mem_takeWhile_imp h⟩

theorem takeWhile_eq_self {order : List ℕ} (h : ∀ metaId ∈ order, framesOf cfg surfaces metas metaId ≠ []) :
    order.takeWhile (framesOf cfg surfaces metas · ≠ []) = order :=
  List.takeWhile_eq_self_iff.mpr fun metaId hm => by simpa using h metaId hm

/-- The requests are as they should be exactly when the condition holds. -/
theorem submitsRois_iff {map : TreeMap ℕ TensorInputBatch} {order : List ℕ}
    (hgather : gather cfg surfaces metas = some map) (hsized : Sized cfg surfaces metas) (horder : order.Perm map.keys)
    (answer : ℕ → ℕ → NvDsInferStatus) :
    SubmitsRois cfg surfaces metas (processInputTensor cfg surfaces args metas answer order) ↔
      Submittable cfg surfaces metas answer order := by
  have hgathered := gather_gathered metas hgather
  have hnodup : order.Nodup := horder.nodup_iff.mpr TreeMap.nodup_keys
  have hmem : ∀ metaId, metaId ∈ order ↔ metaId ∈ map := fun metaId => horder.mem_iff.trans TreeMap.mem_keys
  have hmem' : ∀ metaId ∈ order, metaId ∈ map := fun metaId => (hmem metaId).mp
  -- a `meta_id` that is not in the map has no regions
  have hframes : ∀ metaId, framesOf cfg surfaces metas metaId ≠ [] → metaId ∈ order := by
    intro metaId hne
    rw [hmem, hgathered.mem]
    intro hnil
    exact hne (by simp [framesOf, hnil])
  have hcalls : (processInputTensor cfg surfaces args metas answer order).1 =
      (order.takeWhile (framesOf cfg surfaces metas · ≠ [])).flatMap
        fun metaId => (requestsOf cfg surfaces args metas answer metaId).1 := by
    rw [processInputTensor, hgather]
    exact submitGroups_eq hgathered hsized order _ hmem'
  have hstatus : (processInputTensor cfg surfaces args metas answer order).2 = .success ↔
      (∀ metaId ∈ order, framesOf cfg surfaces metas metaId ≠ []) ∧ order.getLast?.elim .success
        (fun metaId => (requestsOf cfg surfaces args metas answer metaId).2) = .success := by
    rw [processInputTensor, hgather]
    exact submitGroups_status hgathered hsized order _ hmem'
  have hfilter : ∀ metaId, (processInputTensor cfg surfaces args metas answer order).1.filter (·.metaId = metaId) =
      if metaId ∈ order.takeWhile (framesOf cfg surfaces metas · ≠ []) then
        (requestsOf cfg surfaces args metas answer metaId).1 else [] := by
    intro metaId
    rw [hcalls]
    exact Keyed.filter_flatMap_key (metaId_of_mem_requestsOf answer)
      ((List.takeWhile_sublist _).nodup hnodup) metaId
  have hlast : order.getLast?.elim .success (fun metaId => (requestsOf cfg surfaces args metas answer metaId).2) =
      .success ↔ ∀ metaId ∈ order.getLast?, (requestsOf cfg surfaces args metas answer metaId).2 = .success := by
    rcases order.getLast? with _ | metaId
    · simp
    · simp
  have hregions := Keyed.takeWhile_complete_iff (p := (framesOf cfg surfaces metas · ≠ [])) hnodup
  constructor
  · intro h
    have hserved : ∀ metaId ∈ order, framesOf cfg surfaces metas metaId ≠ [] →
        metaId ∈ order.takeWhile (framesOf cfg surfaces metas · ≠ []) := by
      intro metaId _ hne
      by_contra hnot
      have hall := (h.rois metaId).all
      rw [hfilter, if_neg hnot] at hall
      exact hne (hall fun call hcall => (List.not_mem_nil hcall).elim).symm
    constructor
    · simpa using hregions.mp hserved
    · intro hb metaId hmo hne
      have hs := h.rois metaId
      rw [hfilter, if_pos (hserved metaId hmo hne)] at hs
      exact dims_of_submits hne hs hb
    · intro metaId hmo
      by_cases hne : framesOf cfg surfaces metas metaId = []
      · intro i chunk hchunk _ frame hframe
        have hflat : frame ∈ framesOf cfg surfaces metas metaId := by
          rw [← flatten_chunksOf]
          exact List.mem_flatten.mpr ⟨chunk, List.mem_of_getElem? hchunk, hframe⟩
        rw [hne] at hflat
        exact (List.not_mem_nil hflat).elim
      · have hopt : ∀ call ∈ (requestsOf cfg surfaces args metas answer metaId).1, OptionsOwn call := by
          intro call hcall
          refine h.options call ?_
          rw [hcalls]
          exact List.mem_flatMap.mpr ⟨metaId, hserved metaId hmo hne, hcall⟩
        exact (options_requestsOf answer metaId).mp hopt
    · intro hall hsucc metaId hmo
      have hgot := (h.success (hstatus.mpr ⟨hall, hlast.mpr fun m hm =>
        (succeeds_iff answer (hall m (List.mem_of_getLast? hm))).mpr (hsucc m hm)⟩)).1
      have haccepted : ∀ call ∈ (requestsOf cfg surfaces args metas answer metaId).1, call.status = .success := by
        intro call hcall
        refine hgot call ?_
        rw [hcalls, takeWhile_eq_self hall]
        exact List.mem_flatMap.mpr ⟨metaId, hmo, hcall⟩
      exact succeeds_of_calls (hall metaId hmo) haccepted
  · intro h
    have hserved := hregions.mpr (by simpa using h.regions)
    constructor
    · intro metaId
      rw [hfilter]
      by_cases hne : framesOf cfg surfaces metas metaId = []
      · rw [if_neg fun hm => (mem_of_mem_takeWhile hm).2 hne, hne]
        exact ⟨List.prefix_refl _, fun _ => rfl, trivial⟩
      · rw [if_pos (hserved metaId (hframes metaId hne) hne)]
        exact submits_of_dims answer hne fun hb => h.dims hb metaId (hframes metaId hne) hne
    · intro call hcall
      rw [hcalls] at hcall
      obtain ⟨metaId, hm, hcall⟩ := List.mem_flatMap.mp hcall
      exact (options_requestsOf answer metaId).mpr (h.objects metaId (mem_of_mem_takeWhile hm).1) call hcall
    · intro hs
      obtain ⟨hall, hlast'⟩ := hstatus.mp hs
      have hsucc := h.last hall fun m hm =>
        (succeeds_iff answer (hall m (List.mem_of_getLast? hm))).mp (hlast.mp hlast' m hm)
      constructor
      · intro call hcall
        rw [hcalls] at hcall
        obtain ⟨metaId, hm, hcall⟩ := List.mem_flatMap.mp hcall
        exact (requestsOf_all (hsucc metaId (mem_of_mem_takeWhile hm).1)).1 call hcall
      · intro metaId
        rw [hfilter]
        by_cases hne : framesOf cfg surfaces metas metaId = []
        · rw [if_neg fun hm => (mem_of_mem_takeWhile hm).2 hne, hne]
          rfl
        · rw [if_pos (hserved metaId (hframes metaId hne) hne)]
          exact (requestsOf_all (hsucc metaId (hframes metaId hne))).2

/-! ### Two groups, and an object -/

/-- A region of the source `padIndex`. -/
def roiOf (padIndex : ℕ) (objectMeta : Option ℕ) : NvDsRoiMeta :=
  ⟨0, 0, 64, 64, ⟨padIndex, 0, 9⟩, 1, 1, 0, 0, objectMeta⟩

/-- A tensor of a group and its regions. -/
def preProcessed (metaId base : ℕ) (shape : List ℕ) (rois : List NvDsRoiMeta) : NvDsUserMeta :=
  .preProcessBatch ⟨[5], some ⟨base, 4096, shape, .fp32, "input", 0, metaId⟩, rois⟩

/-- Requests have at most two regions. -/
def twoAtATime : Settings := ⟨5, 2, true⟩

def noBuffer : BufferArgs := ⟨0, none, none, none⟩

/-- Three regions with two tensors, and one region of another group. -/
def twoGroups : List NvDsUserMeta :=
  [preProcessed 1 1000 [3, 4] [roiOf 0 none, roiOf 1 none, roiOf 2 none], .other,
    preProcessed 2 5000 [1, 4] [roiOf 3 none],
    preProcessed 1 9000 [3, 2, 2] [roiOf 0 none, roiOf 1 none, roiOf 2 none]]

/-- The third region goes in a request of its own. -/
theorem submitsRois_iff_twoGroups : SubmitsRois twoAtATime [(640, 480)] twoGroups
    (processInputTensor twoAtATime [(640, 480)] noBuffer twoGroups (fun _ _ => .success) [2, 1]) := by
  have hgather : (gather twoAtATime [(640, 480)] twoGroups).isSome := by decide +kernel
  obtain ⟨map, hmap⟩ := Option.isSome_iff_exists.mp hgather
  have hkeys : ∀ map' ∈ gather twoAtATime [(640, 480)] twoGroups, [2, 1].Perm map'.keys := by decide +kernel
  have hsized : Sized twoAtATime [(640, 480)] twoGroups := by
    intro _ metaId _ e he
    obtain ⟨m, hm, he⟩ := List.mem_filterMap.mp he
    have hall : ∀ m ∈ twoGroups, ∀ e ∈ take twoAtATime m,
        e.1.tensorShape.headD 0 = (framesOf twoAtATime [(640, 480)] twoGroups e.1.metaId).length := by decide +kernel
    obtain ⟨hsome, hid⟩ := Option.filter_eq_some_iff.mp he
    rw [← of_decide_eq_true hid]
    exact hall m hm e hsome
  refine (submitsRois_iff hmap hsized (hkeys map hmap) _).mpr ⟨by decide +kernel, ?_, ?_, fun _ _ _ _ _ _ => rfl⟩
  · show Batched twoAtATime → ∀ metaId ∈ [2, 1], framesOf twoAtATime [(640, 480)] twoGroups metaId ≠ [] →
      ∀ e ∈ takenOf twoAtATime twoGroups metaId, e.1.tensorShape.tail ≠ []
    decide +kernel
  · intro metaId hmo i chunk hchunk _
    have hnone : ∀ metaId ∈ [2, 1], ∀ chunk ∈ chunksOf twoAtATime [(640, 480)] twoGroups metaId,
        ∀ frame ∈ chunk, frame.objMeta = none := by decide +kernel
    exact hnone metaId hmo chunk (List.mem_of_getElem? hchunk)

/-- A region with an object: the objects are under the key of the frames. -/
theorem objectsUnderFrames : ¬ SubmitsRois twoAtATime [(640, 480)] [preProcessed 1 1000 [1, 4] [roiOf 0 (some 7)]]
    (processInputTensor twoAtATime [(640, 480)] noBuffer [preProcessed 1 1000 [1, 4] [roiOf 0 (some 7)]]
      (fun _ _ => .success) [1]) := by
  intro h
  have hcalls : ∃ call ∈ (processInputTensor twoAtATime [(640, 480)] noBuffer
      [preProcessed 1 1000 [1, 4] [roiOf 0 (some 7)]] (fun _ _ => .success) [1]).1,
      call.options .frameMetaList = some (.objMetas [some 7]) := by decide +kernel
  obtain ⟨call, hcall, hkey⟩ := hcalls
  have hown := (h.options call hcall).frameMetas
  rw [hkey] at hown
  cases hown

end TensorMode
end InferServer
end DeepStream
