/-
# Tensors that are preprocessed upstream

With `input-tensor-meta` the element does not convert frames: it takes the
tensors that a preprocessing element attached to the buffer, gathers those with
one `meta_id`, and hands their regions of interest to the context in chunks of
at most `max_batch_size`, moving the tensors' pointers on by what it submitted.
The map of the gathered tensors is traversed in an order that is a parameter,
and what the context answers to each chunk is another. Numbers that are only
copied are natural numbers.
-/
import DeepStream.Infer.Layers
import DeepStream.Lib.Chunks
import DeepStream.Lib.Table
import Mathlib.Tactic.Ring

namespace DeepStream
namespace Infer

open Std

/-! ### The metadata -/

inductive NvDsDataType where
  | fp32 | uint8 | int8 | uint32 | int32 | fp16
  deriving DecidableEq, Repr

structure NvDsFrameMeta where
  batchId : ℕ
  frameNum : ℕ
  deriving DecidableEq, Repr

/-- A region of interest. -/
structure NvDsRoiMeta where
  left : ℕ
  top : ℕ
  frameMeta : NvDsFrameMeta
  scaleRatioX : ℕ
  scaleRatioY : ℕ
  offsetLeft : ℕ
  offsetTop : ℕ
  objectMeta : Option ℕ
  deriving DecidableEq, Repr

/-- A tensor has a batch dimension. -/
structure NvDsPreProcessTensorMeta where
  rawTensorBuffer : ℕ
  tensorShape : List ℕ
  dataType : NvDsDataType
  tensorName : String
  gpuId : ℕ
  metaId : ℕ
  shape_ne_nil : tensorShape ≠ [] := by decide

structure GstNvDsPreProcessBatchMeta where
  targetUniqueIds : List ℕ
  tensorMeta : Option NvDsPreProcessTensorMeta
  roiVector : List NvDsRoiMeta

/-- The user metas of a batch; one of another type is skipped. -/
inductive NvDsUserMeta where
  | preProcessBatch (m : GstNvDsPreProcessBatchMeta)
  | other

/-- What the element was configured with. -/
structure NvInferConfig where
  uniqueId : ℕ
  gpuId : ℕ
  maxBatchSize : ℕ
  layersInfo : List NvDsInferLayerInfo
  maxBatchSize_pos : 0 < maxBatchSize := by decide

/-- A unit of a batch. `inputSurfParams` is the index in the surface list. -/
structure GstNvInferFrame where
  batchIndex : ℕ
  scaleRatioX : ℕ
  scaleRatioY : ℕ
  offsetLeft : ℕ
  offsetTop : ℕ
  roiLeft : ℕ
  roiTop : ℕ
  roiMeta : NvDsRoiMeta
  frameMeta : NvDsFrameMeta
  objMeta : Option ℕ
  frameNum : ℕ
  inputSurfParams : ℕ
  deriving DecidableEq, Repr

def GstNvInferFrame.ofRoi (roi : NvDsRoiMeta) : GstNvInferFrame where
  batchIndex := roi.frameMeta.batchId
  scaleRatioX := roi.scaleRatioX
  scaleRatioY := roi.scaleRatioY
  offsetLeft := roi.offsetLeft
  offsetTop := roi.offsetTop
  roiLeft := roi.left
  roiTop := roi.top
  roiMeta := roi
  frameMeta := roi.frameMeta
  objMeta := roi.objectMeta
  frameNum := roi.frameMeta.frameNum
  inputSurfParams := roi.frameMeta.batchId

def NvDsDataType.toInfer : NvDsDataType → NvDsInferDataType
  | .fp32 => .float
  | .fp16 => .half
  | .uint8 | .int8 => .int8
  | .uint32 | .int32 => .int32

/-! ### Gathering -/

/-- `TensorInputBatch`. `batch` holds the frames of the batch that is being
filled, or nothing. -/
structure TensorInputBatch where
  batchSize : ℕ
  frames : List GstNvInferFrame
  batch : Option (List GstNvInferFrame)
  tensors : List NvDsInferLayerInfo

def TensorInputBatch.empty : TensorInputBatch := ⟨0, [], none, []⟩

/-- The input layer that is made of a tensor. -/
def tensorOf (t : NvDsPreProcessTensorMeta) : NvDsInferLayerInfo where
  isInput := true
  bindingIndex := -1
  buffer := t.rawTensorBuffer
  layerName := t.tensorName
  inferDims := ⟨t.tensorShape, productOf t.tensorShape⟩
  dataType := t.dataType.toInfer

/-- The element takes the tensor: it is a target and has a tensor, and the
network has an input layer of that name. The GPU of the tensor is compared in
between. -/
inductive Taken where
  | skip
  | error
  | tensor (t : NvDsPreProcessTensorMeta) (rois : List NvDsRoiMeta)

def take (cfg : NvInferConfig) : NvDsUserMeta → Taken
  | .other => .skip
  | .preProcessBatch m =>
    if cfg.uniqueId ∉ m.targetUniqueIds then .skip
    else
      match m.tensorMeta with
      | none => .skip
      | some t =>
        if t.gpuId ≠ cfg.gpuId then .error
        else if cfg.layersInfo.any fun layer => layer.isInput && t.tensorName = layer.layerName then
          .tensor t m.roiVector
        else .skip

/-- The round of the first loop for a tensor that is taken. No result when the
batch sizes differ. -/
def TensorInputBatch.add (b : TensorInputBatch) (t : NvDsPreProcessTensorMeta) (rois : List NvDsRoiMeta) :
    Option TensorInputBatch :=
  let b := if b.batch = none then { b with frames := b.frames ++ rois.map .ofRoi } else b
  let tensor := tensorOf t
  let d0 := tensor.inferDims.d.headD 0
  if b.batchSize = 0 then some { b with batchSize := d0, tensors := b.tensors ++ [tensor] }
  else if b.batchSize ≠ d0 then none
  else some { b with tensors := b.tensors ++ [tensor] }

def gatherStep (cfg : NvInferConfig) (map : TreeMap ℕ TensorInputBatch) (m : NvDsUserMeta) :
    Option (TreeMap ℕ TensorInputBatch) :=
  match take cfg m with
  | .skip => some map
  | .error => none
  | .tensor t rois => ((map.getD t.metaId .empty).add t rois).map fun b => map.insert t.metaId b

/-- The first loop; no result when it ends in `GST_FLOW_ERROR`. -/
def gather (cfg : NvInferConfig) (metas : List NvDsUserMeta) : Option (TreeMap ℕ TensorInputBatch) :=
  metas.foldlM (gatherStep cfg) ∅

/-! ### Submitting -/

/-- A call of `queueInputBatchPreprocessed`: the batch it is made for, the
tensors it is handed, and what it returns. -/
structure Call where
  metaId : ℕ
  frames : List GstNvInferFrame
  tensors : List NvDsInferLayerInfo
  status : NvDsInferStatus

/-- `tensor.dims.d[0] = n`; `dims` and `inferDims` are one union. -/
def setBatchDim (n : ℕ) (tensor : NvDsInferLayerInfo) : NvDsInferLayerInfo :=
  { tensor with inferDims := { tensor.inferDims with d := n :: tensor.inferDims.d.tail } }

/-- The pointer moves on by the bytes that the dimensions describe. -/
def moveOn (tensor : NvDsInferLayerInfo) : NvDsInferLayerInfo :=
  { tensor with buffer := tensor.buffer +
      tensor.inferDims.d.foldl (fun offset d => offset * d) (getElementSize tensor.dataType) }

/-- The second loop for one `meta_id`, from the frames that are left on; `c`
counts the calls. The flag says that no call failed. -/
def submitFrames (cfg : NvInferConfig) (metaId : ℕ) (status : ℕ → NvDsInferStatus) :
    List GstNvInferFrame → Option (List GstNvInferFrame) → List NvDsInferLayerInfo → ℕ → List Call × Bool
  | [], _, _, _ => ([], true)
  | frame :: rest, batch, tensors, c =>
    let frames := batch.getD [] ++ [frame]
    if rest.isEmpty ∨ frames.length = cfg.maxBatchSize then
      let tensors := tensors.map (setBatchDim frames.length)
      let call : Call := ⟨metaId, frames, tensors, status c⟩
      if status c = .memError then
        -- the batch is deleted, and the pointers stay where they are
        let r := submitFrames cfg metaId status rest none tensors (c + 1)
        (call :: r.1, r.2)
      else if status c ≠ .success then ([call], false)
      else
        let r := submitFrames cfg metaId status rest none (tensors.map moveOn) (c + 1)
        (call :: r.1, r.2)
    else submitFrames cfg metaId status rest (some frames) tensors c

/-- The second loop; `order` is the order of the map, and `status` gives the
answer to each call of each `meta_id`. -/
def submitAll (cfg : NvInferConfig) (status : ℕ → ℕ → NvDsInferStatus) (map : TreeMap ℕ TensorInputBatch) :
    List ℕ → List Call × Bool
  | [] => ([], true)
  | metaId :: order =>
    let b := map.getD metaId .empty
    let r := submitFrames cfg metaId (status metaId) b.frames b.batch b.tensors 0
    if r.2 then
      let rest := submitAll cfg status map order
      (r.1 ++ rest.1, rest.2)
    else (r.1, false)

/-- `gst_nvinfer_process_tensor_input`: the calls it makes, and whether it
returns `GST_FLOW_OK`. -/
def processTensorInput (cfg : NvInferConfig) (metas : List NvDsUserMeta) (status : ℕ → ℕ → NvDsInferStatus)
    (order : List ℕ) : List Call × Bool :=
  match gather cfg metas with
  | none => ([], false)
  | some map => submitAll cfg status map order

/-! ### What the claim of a chunk is -/

/-- The bytes of one slice of a tensor. -/
def sliceBytes (tensor : NvDsInferLayerInfo) : ℕ :=
  tensor.inferDims.d.tail.prod * getElementSize tensor.dataType

/-- The slices `[k, k + n)` of a tensor. -/
def slices (k n : ℕ) (tensor : NvDsInferLayerInfo) : NvDsInferLayerInfo :=
  { tensor with
    buffer := tensor.buffer + k * sliceBytes tensor
    inferDims := ⟨n :: tensor.inferDims.d.tail, productOf (n :: tensor.inferDims.d.tail)⟩ }

/-- The calls from position `k` on are handed the slices of their frames, at
most `n` in a call. -/
def Described (n : ℕ) (tensors : List NvDsInferLayerInfo) : ℕ → List Call → Prop
  | _, [] => True
  | k, call :: calls => call.frames.length ≤ n ∧ call.tensors = tensors.map (slices k call.frames.length) ∧
      Described n tensors (k + call.frames.length) calls

instance Described.decidable (n : ℕ) (tensors : List NvDsInferLayerInfo) :
    ∀ (k : ℕ) (calls : List Call), Decidable (Described n tensors k calls)
  | _, [] => inferInstanceAs (Decidable True)
  | k, call :: calls =>
    have := Described.decidable n tensors (k + call.frames.length) calls
    inferInstanceAs (Decidable (_ ∧ _ ∧ _))

/-- The tensors and regions of one `meta_id` that the element takes. -/
def takenOf (cfg : NvInferConfig) (metas : List NvDsUserMeta) (metaId : ℕ) :
    List (NvDsPreProcessTensorMeta × List NvDsRoiMeta) :=
  metas.filterMap fun m =>
    match take cfg m with
    | .tensor t rois => if t.metaId = metaId then some (t, rois) else none
    | _ => none

/-- The regions of a `meta_id`: all its tensors are made of the same ones. -/
def roisOf (cfg : NvInferConfig) (metas : List NvDsUserMeta) (metaId : ℕ) : List NvDsRoiMeta :=
  ((takenOf cfg metas metaId).head?.map Prod.snd).getD []

def tensorsOf (cfg : NvInferConfig) (metas : List NvDsUserMeta) (metaId : ℕ) : List NvDsInferLayerInfo :=
  (takenOf cfg metas metaId).map fun e => tensorOf e.1

/-- Every region is in one call, in order, and every call is handed the slices
of its regions. -/
def PairsRois (cfg : NvInferConfig) (metas : List NvDsUserMeta) (calls : List Call) : Prop :=
  ∀ metaId,
    (calls.filter (·.metaId = metaId)).flatMap Call.frames = (roisOf cfg metas metaId).map .ofRoi ∧
      Described cfg.maxBatchSize (tensorsOf cfg metas metaId) 0 (calls.filter (·.metaId = metaId))

/-- When the regions of a `meta_id` are paired with their slices. -/
structure Pairable (cfg : NvInferConfig) (metas : List NvDsUserMeta) (status : ℕ → ℕ → NvDsInferStatus)
    (metaId : ℕ) : Prop where
  /-- Only the first tensor brings regions. -/
  once : ∀ e ∈ (takenOf cfg metas metaId).tail, e.2 = []
  /-- Every chunk has as many elements as the whole tensor. -/
  whole : ∀ chunk ∈ Chunks.chunks cfg.maxBatchSize (roisOf cfg metas metaId),
    ∀ t ∈ tensorsOf cfg metas metaId,
      productOf t.inferDims.d = productOf (chunk.length :: t.inferDims.d.tail)
  /-- Only the last chunk is refused, unless the slices are empty. -/
  refused : ∀ i, i + 1 < (Chunks.chunks cfg.maxBatchSize (roisOf cfg metas metaId)).length →
    status metaId i = .memError → ∀ t ∈ tensorsOf cfg metas metaId, sliceBytes t = 0

/-! ### The loop over the frames -/

variable {cfg : NvInferConfig}

/-- The calls for a list of chunks. -/
def submitChunks (metaId : ℕ) (status : ℕ → NvDsInferStatus) :
    List (List GstNvInferFrame) → List NvDsInferLayerInfo → ℕ → List Call
  | [], _, _ => []
  | chunk :: chunks, tensors, c =>
    let tensors := tensors.map (setBatchDim chunk.length)
    ⟨metaId, chunk, tensors, status c⟩ ::
      submitChunks metaId status chunks (if status c = .memError then tensors else tensors.map moveOn) (c + 1)

theorem metaId_of_mem_submitChunks {metaId : ℕ} {status : ℕ → NvDsInferStatus} :
    ∀ {chunks : List (List GstNvInferFrame)} {tensors : List NvDsInferLayerInfo} {c : ℕ},
      ∀ call ∈ submitChunks metaId status chunks tensors c, call.metaId = metaId
  | [], _, _, _, h => by cases h
  | _ :: _, _, _, call, h => by
    rcases List.mem_cons.mp h with rfl | h
    · rfl
    · exact metaId_of_mem_submitChunks call h

theorem frames_submitChunks {metaId : ℕ} {status : ℕ → NvDsInferStatus} :
    ∀ (chunks : List (List GstNvInferFrame)) (tensors : List NvDsInferLayerInfo) (c : ℕ),
      (submitChunks metaId status chunks tensors c).flatMap Call.frames = chunks.flatten
  | [], _, _ => rfl
  | chunk :: chunks, tensors, c => by
    rw [submitChunks, List.flatMap_cons, frames_submitChunks chunks, List.flatten_cons]

/-- The loop submits the chunks of the frames, when no call fails. -/
theorem submitFrames_eq {metaId : ℕ} {status : ℕ → NvDsInferStatus}
    (hstatus : ∀ c, status c = .success ∨ status c = .memError) :
    ∀ (frames : List GstNvInferFrame) (batch : Option (List GstNvInferFrame))
      (tensors : List NvDsInferLayerInfo) (c : ℕ), (batch.getD []).length < cfg.maxBatchSize →
      (frames = [] → batch.getD [] = []) →
      submitFrames cfg metaId status frames batch tensors c =
        (submitChunks metaId status (Chunks.fill cfg.maxBatchSize (batch.getD []) frames) tensors c, true)
  | [], batch, tensors, c, _, hnil => by rw [hnil rfl]; rfl
  | frame :: rest, batch, tensors, c, hlt, _ => by
    have hlen : (batch.getD [] ++ [frame]).length = (batch.getD []).length + 1 := by simp
    have hpos := cfg.maxBatchSize_pos
    rw [submitFrames]
    by_cases hclose : rest.isEmpty ∨ (batch.getD [] ++ [frame]).length = cfg.maxBatchSize
    · -- the batch is closed
      have hfill : Chunks.fill cfg.maxBatchSize (batch.getD []) (frame :: rest) =
          (batch.getD [] ++ [frame]) :: Chunks.chunks cfg.maxBatchSize rest := by
        by_cases hfull : (batch.getD []).length + 1 = cfg.maxBatchSize
        · exact Chunks.fill_cons_full hfull rest
        · have hrest : rest = [] := by simpa [hfull] using hclose
          rw [hrest, Chunks.fill_singleton, Chunks.chunks_nil]
      have hnext (ts : List NvDsInferLayerInfo) : submitFrames cfg metaId status rest none ts (c + 1) =
          (submitChunks metaId status (Chunks.chunks cfg.maxBatchSize rest) ts (c + 1), true) :=
        submitFrames_eq hstatus rest none ts (c + 1) hpos fun _ => rfl
      rw [if_pos hclose, hfill, submitChunks]
      dsimp only
      rcases hstatus c with hs | hs
      · rw [if_neg (by simp [hs]), if_neg (by simp [hs]), if_neg (by simp [hs]), hnext]
      · rw [if_pos hs, if_pos hs, hnext]
    · rw [if_neg hclose]
      rw [not_or, List.isEmpty_iff] at hclose
      have hne : (batch.getD []).length + 1 ≠ cfg.maxBatchSize := hlen ▸ hclose.2
      rw [Chunks.fill_cons_of_ne hne]
      refine submitFrames_eq hstatus rest _ tensors c ?_ fun h => absurd h hclose.1
      show (batch.getD [] ++ [frame]).length < _
      omega

/-! ### The tensors of a call -/

/-- The tensor after `a` slices are submitted. -/
def moved (a : ℕ) (tensor : NvDsInferLayerInfo) : NvDsInferLayerInfo :=
  { tensor with buffer := tensor.buffer + a * sliceBytes tensor }

@[simp] theorem setBatchDim_setBatchDim (n n' : ℕ) (tensor : NvDsInferLayerInfo) :
    setBatchDim n' (setBatchDim n tensor) = setBatchDim n' tensor := rfl

theorem foldl_mul (l : List ℕ) : ∀ n : ℕ, l.foldl (fun offset d => offset * d) n = n * l.prod := by
  induction l with
  | nil => intro n; simp
  | cons d l ih =>
    intro n
    rw [List.foldl_cons, ih, List.prod_cons, mul_assoc]

/-- Moving on after `n` slices. -/
theorem moveOn_setBatchDim (a n : ℕ) (tensor : NvDsInferLayerInfo) :
    moveOn (setBatchDim n (moved a tensor)) = setBatchDim n (moved (a + n) tensor) := by
  have hoffset : (n :: tensor.inferDims.d.tail).foldl (fun offset d => offset * d)
      (getElementSize tensor.dataType) = n * sliceBytes tensor := by
    rw [foldl_mul, List.prod_cons, sliceBytes]
    ring
  have hbuffer : tensor.buffer + a * sliceBytes tensor + n * sliceBytes tensor =
      tensor.buffer + (a + n) * sliceBytes tensor := by ring
  unfold moveOn setBatchDim moved
  simp only [hoffset, hbuffer]

/-- A tensor that is moved on and cut to `n` slices is the slices `[k, k + n)`. -/
theorem setBatchDim_moved_eq_slices {a k n : ℕ} {tensor : NvDsInferLayerInfo} :
    setBatchDim n (moved a tensor) = slices k n tensor ↔ a * sliceBytes tensor = k * sliceBytes tensor ∧
      tensor.inferDims.numElements = productOf (n :: tensor.inferDims.d.tail) := by
  simp [setBatchDim, moved, slices, and_comm]

/-- The calls are handed the right slices if and only if every chunk has the
element count of the tensor and no chunk but the last is refused. -/
theorem described_submitChunks_iff {metaId : ℕ} {status : ℕ → NvDsInferStatus} {n : ℕ}
    {tensors₀ : List NvDsInferLayerInfo} :
    ∀ (chunks : List (List GstNvInferFrame)) (tensors : List NvDsInferLayerInfo) (a k c : ℕ),
      (∀ chunk ∈ chunks, chunk ≠ [] ∧ chunk.length ≤ n) →
      (∀ n, tensors.map (setBatchDim n) = tensors₀.map fun t => setBatchDim n (moved a t)) →
      (∀ t ∈ tensors₀, a * sliceBytes t = k * sliceBytes t) →
      (Described n tensors₀ k (submitChunks metaId status chunks tensors c) ↔
        (∀ chunk ∈ chunks, ∀ t ∈ tensors₀,
          t.inferDims.numElements = productOf (chunk.length :: t.inferDims.d.tail)) ∧
        ∀ i, i + 1 < chunks.length → status (c + i) = .memError → ∀ t ∈ tensors₀, sliceBytes t = 0)
  | [], _, _, _, _, _, _, _ => by simp [submitChunks, Described]
  | chunk :: chunks, tensors, a, k, c, hchunks, hcur, hpos => by
    obtain ⟨hne, hle⟩ := hchunks chunk (List.mem_cons_self ..)
    have hlen : 0 < chunk.length := List.length_pos_iff.mpr hne
    have hrest : ∀ chunk ∈ chunks, chunk ≠ [] ∧ chunk.length ≤ n := fun x hx =>
      hchunks x (List.mem_cons_of_mem _ hx)
    have hhead : tensors.map (setBatchDim chunk.length) = tensors₀.map (slices k chunk.length) ↔
        ∀ t ∈ tensors₀, t.inferDims.numElements = productOf (chunk.length :: t.inferDims.d.tail) := by
      rw [hcur, List.map_inj_left]
      exact forall₂_congr fun t ht => by
        rw [setBatchDim_moved_eq_slices]
        exact and_iff_right (hpos t ht)
    have hstep : (∀ i, i + 1 < (chunk :: chunks).length → status (c + i) = .memError →
          ∀ t ∈ tensors₀, sliceBytes t = 0) ↔
        ((chunks ≠ [] → status c = .memError → ∀ t ∈ tensors₀, sliceBytes t = 0) ∧
          ∀ i, i + 1 < chunks.length → status (c + 1 + i) = .memError → ∀ t ∈ tensors₀, sliceBytes t = 0) := by
      constructor
      · intro h
        refine ⟨fun hne hs => h 0 (by simpa using List.length_pos_iff.mpr hne) hs, fun i hi hs => ?_⟩
        exact h (i + 1) (by simpa using hi) (by rwa [show c + (i + 1) = c + 1 + i by omega])
      · rintro ⟨h0, hsucc⟩ i hi hs
        cases i with
        | zero => exact h0 (List.length_pos_iff.mp (by simpa using hi)) hs
        | succ i =>
          exact hsucc i (by simpa using hi) (by rwa [show c + 1 + i = c + (i + 1) by omega])
    rw [submitChunks, Described, hstep, List.forall_mem_cons]
    dsimp only
    by_cases hs : status c = .memError
    · rw [if_pos hs]
      have hcur' (m : ℕ) : (tensors.map (setBatchDim chunk.length)).map (setBatchDim m) =
          tensors₀.map fun t => setBatchDim m (moved a t) := by
        rw [← hcur m, List.map_map]
        rfl
      by_cases hzero : ∀ t ∈ tensors₀, sliceBytes t = 0
      · have ih := @described_submitChunks_iff metaId status n tensors₀ chunks _ a (k + chunk.length) (c + 1) hrest hcur'
          fun t ht => by rw [hzero t ht]; simp
        rw [hhead, ih]
        constructor
        · rintro ⟨-, hnum, hnums, hrefused⟩
          exact ⟨⟨hnum, hnums⟩, fun _ _ => hzero, hrefused⟩
        · rintro ⟨⟨hnum, hnums⟩, -, hrefused⟩
          exact ⟨hle, hnum, hnums, hrefused⟩
      · cases hc : chunks with
        | nil =>
          rw [hhead]
          simp [submitChunks, Described, hle]
        | cons chunk' chunks' =>
          -- the next chunk is handed the slices of this one
          refine iff_of_false ?_ fun h => hzero (h.2.1 (by simp) hs)
          rintro ⟨-, -, hdesc⟩
          rw [submitChunks, Described] at hdesc
          obtain ⟨-, heq, -⟩ := hdesc
          rw [hcur', List.map_inj_left] at heq
          refine hzero fun t ht => ?_
          have hbuf := (setBatchDim_moved_eq_slices.mp (heq t ht)).1
          rw [hpos t ht, Nat.add_mul] at hbuf
          have hmul : chunk.length * sliceBytes t = 0 := by omega
          exact (Nat.mul_eq_zero.mp hmul).resolve_left hlen.ne'
    · rw [if_neg hs]
      have hcur' (m : ℕ) : ((tensors.map (setBatchDim chunk.length)).map moveOn).map (setBatchDim m) =
          tensors₀.map fun t => setBatchDim m (moved (a + chunk.length) t) := by
        rw [hcur, List.map_map, List.map_map]
        refine List.map_congr_left fun t _ => ?_
        show setBatchDim m (moveOn (setBatchDim chunk.length (moved a t))) = _
        rw [moveOn_setBatchDim, setBatchDim_setBatchDim]
      have ih := @described_submitChunks_iff metaId status n tensors₀ chunks _ (a + chunk.length) (k + chunk.length) (c + 1) hrest hcur'
        fun t ht => by rw [Nat.add_mul, Nat.add_mul, hpos t ht]
      rw [hhead, ih]
      constructor
      · rintro ⟨-, hnum, hnums, hrefused⟩
        exact ⟨⟨hnum, hnums⟩, fun _ h => absurd h hs, hrefused⟩
      · rintro ⟨⟨hnum, hnums⟩, -, hrefused⟩
        exact ⟨hle, hnum, hnums, hrefused⟩

/-! ### What is gathered -/

/-- The map holds what is taken, for every `meta_id`. -/
structure Gathers (taken : ℕ → List (NvDsPreProcessTensorMeta × List NvDsRoiMeta))
    (map : TreeMap ℕ TensorInputBatch) : Prop where
  mem : ∀ metaId, metaId ∈ map ↔ taken metaId ≠ []
  batch : ∀ metaId, (map.getD metaId .empty).batch = none
  frames : ∀ metaId, (map.getD metaId .empty).frames = (taken metaId).flatMap fun e => e.2.map .ofRoi
  tensors : ∀ metaId, (map.getD metaId .empty).tensors = (taken metaId).map fun e => tensorOf e.1

theorem TensorInputBatch.add_spec {b b' : TensorInputBatch} {t : NvDsPreProcessTensorMeta}
    {rois : List NvDsRoiMeta} (hb : b.batch = none) (h : b.add t rois = some b') :
    b'.batch = none ∧ b'.frames = b.frames ++ rois.map .ofRoi ∧ b'.tensors = b.tensors ++ [tensorOf t] := by
  unfold add at h
  rw [if_pos hb] at h
  dsimp only at h
  split at h
  · cases h
    exact ⟨hb, rfl, rfl⟩
  · split at h
    · cases h
    · cases h
      exact ⟨hb, rfl, rfl⟩

theorem Gathers.step {taken : ℕ → List (NvDsPreProcessTensorMeta × List NvDsRoiMeta)}
    {map map' : TreeMap ℕ TensorInputBatch} {m : NvDsUserMeta} (h : Gathers taken map)
    (hm : gatherStep cfg map m = some map') :
    Gathers (fun metaId => taken metaId ++ takenOf cfg [m] metaId) map' := by
  unfold gatherStep at hm
  cases ht : take cfg m with
  | skip =>
    rw [ht] at hm
    cases hm
    have hnone (metaId : ℕ) : takenOf cfg [m] metaId = [] := by simp [takenOf, ht]
    simpa [hnone] using h
  | error =>
    rw [ht] at hm
    cases hm
  | tensor t rois =>
    rw [ht] at hm
    obtain ⟨b, hb, rfl⟩ := Option.map_eq_some_iff.mp hm
    obtain ⟨hbatch, hframes, htensors⟩ := TensorInputBatch.add_spec (h.batch t.metaId) hb
    have htaken (metaId : ℕ) : takenOf cfg [m] metaId = if t.metaId = metaId then [(t, rois)] else [] := by
      unfold takenOf
      rw [List.filterMap_cons, ht]
      by_cases he : t.metaId = metaId
      · simp [he]
      · simp [he]
    have hget (metaId : ℕ) : (map.insert t.metaId b).getD metaId .empty =
        if t.metaId = metaId then b else map.getD metaId .empty := by
      simp [TreeMap.getD_insert]
    constructor <;> intro metaId
    · rw [TreeMap.mem_insert, htaken, h.mem]
      by_cases he : t.metaId = metaId
      · simp [he]
      · simp [he]
    · rw [hget]
      split
      · exact hbatch
      · exact h.batch metaId
    · rw [hget, htaken]
      by_cases he : t.metaId = metaId
      · rw [if_pos he, if_pos he, hframes, he, h.frames]
        simp
      · rw [if_neg he, if_neg he, h.frames]
        simp
    · rw [hget, htaken]
      by_cases he : t.metaId = metaId
      · rw [if_pos he, if_pos he, htensors, he, h.tensors]
        simp
      · rw [if_neg he, if_neg he, h.tensors]
        simp

/-- The first loop gathers the tensors that are taken. -/
theorem gather_gathers (metas : List NvDsUserMeta) :
    ∀ {map : TreeMap ℕ TensorInputBatch}, gather cfg metas = some map → Gathers (takenOf cfg metas) map := by
  induction metas using List.reverseRecOn with
  | nil =>
    rintro _ ⟨⟩
    exact ⟨fun _ => by simp [takenOf], fun _ => by simp [TensorInputBatch.empty],
      fun _ => by simp [takenOf, TensorInputBatch.empty], fun _ => by simp [takenOf, TensorInputBatch.empty]⟩
  | append_singleton metas m ih =>
    intro map h
    rw [gather, List.foldlM_append] at h
    obtain ⟨map₀, h₀, h₁⟩ := Option.bind_eq_some_iff.mp h
    have hstep : gatherStep cfg map₀ m = some map := by simpa using h₁
    have hg := (ih h₀).step hstep
    have htaken : takenOf cfg (metas ++ [m]) = fun metaId => takenOf cfg metas metaId ++ takenOf cfg [m] metaId :=
      funext fun metaId => List.filterMap_append
    rwa [htaken]

/-! ### Pairing -/

/-- The calls that are made for one `meta_id`. -/
def callsOf (cfg : NvInferConfig) (metas : List NvDsUserMeta) (status : ℕ → ℕ → NvDsInferStatus) (metaId : ℕ) :
    List Call :=
  submitChunks metaId (status metaId)
    (Chunks.chunks cfg.maxBatchSize ((takenOf cfg metas metaId).flatMap fun e => e.2.map .ofRoi))
    (tensorsOf cfg metas metaId) 0

theorem submitAll_eq {metas : List NvDsUserMeta} {map : TreeMap ℕ TensorInputBatch}
    (hg : Gathers (takenOf cfg metas) map) {status : ℕ → ℕ → NvDsInferStatus}
    (hstatus : ∀ metaId c, status metaId c = .success ∨ status metaId c = .memError) :
    ∀ order : List ℕ, submitAll cfg status map order = (order.flatMap (callsOf cfg metas status), true)
  | [] => rfl
  | metaId :: order => by
    have hsubmit := @submitFrames_eq cfg metaId (status metaId) (hstatus metaId) (map.getD metaId .empty).frames none
      (map.getD metaId .empty).tensors 0 cfg.maxBatchSize_pos fun _ => rfl
    rw [submitAll]
    dsimp only
    rw [hg.batch, hsubmit, submitAll_eq hg hstatus order, if_pos rfl, hg.frames, hg.tensors]
    rfl

/-- The calls of one `meta_id` among all. -/
theorem filter_flatMap_callsOf {metas : List NvDsUserMeta} {status : ℕ → ℕ → NvDsInferStatus} (metaId : ℕ) :
    ∀ {order : List ℕ}, order.Nodup → (metaId ∉ order → takenOf cfg metas metaId = []) →
      (order.flatMap (callsOf cfg metas status)).filter (·.metaId = metaId) = callsOf cfg metas status metaId
  | [], _, hnone => by
    rw [callsOf, hnone List.not_mem_nil]
    rfl
  | k :: order, hnodup, hnone => by
    obtain ⟨hk, hnodup⟩ := List.nodup_cons.mp hnodup
    rw [List.flatMap_cons, List.filter_append]
    by_cases he : k = metaId
    · subst he
      have hrest : (order.flatMap (callsOf cfg metas status)).filter (·.metaId = k) = [] := by
        refine List.filter_eq_nil_iff.mpr fun call hcall => ?_
        obtain ⟨k', hk', hcall⟩ := List.mem_flatMap.mp hcall
        rw [metaId_of_mem_submitChunks call hcall]
        have hne : k' ≠ k := fun hkk => hk (hkk ▸ hk')
        simpa using hne
      have hself : (callsOf cfg metas status k).filter (·.metaId = k) = callsOf cfg metas status k :=
        List.filter_eq_self.mpr fun call hcall => by simp [metaId_of_mem_submitChunks call hcall]
      rw [hrest, hself, List.append_nil]
    · have hother : (callsOf cfg metas status k).filter (·.metaId = metaId) = [] :=
        List.filter_eq_nil_iff.mpr fun call hcall => by simp [metaId_of_mem_submitChunks call hcall, he]
      rw [hother, List.nil_append]
      refine filter_flatMap_callsOf metaId hnodup fun hn => hnone ?_
      simpa [Ne.symm he] using hn

/-- The frames of a `meta_id` are those of its regions when only its first
tensor brings regions. -/
theorem frames_eq_iff (cfg : NvInferConfig) (metas : List NvDsUserMeta) (metaId : ℕ) :
    ((takenOf cfg metas metaId).flatMap fun e => e.2.map GstNvInferFrame.ofRoi) =
      (roisOf cfg metas metaId).map .ofRoi ↔ ∀ e ∈ (takenOf cfg metas metaId).tail, e.2 = [] := by
  unfold roisOf
  cases takenOf cfg metas metaId with
  | nil => simp
  | cons e rest => simp [List.flatMap_eq_nil_iff]

theorem forall_mem_chunks_map (cfg : NvInferConfig) (rois : List NvDsRoiMeta) :
    ∀ chunk ∈ (Chunks.chunks cfg.maxBatchSize rois).map (List.map GstNvInferFrame.ofRoi),
      chunk ≠ [] ∧ chunk.length ≤ cfg.maxBatchSize := by
  intro chunk h
  obtain ⟨c, hc, rfl⟩ := List.mem_map.mp h
  exact ⟨by simpa using Chunks.ne_nil_of_mem cfg.maxBatchSize_pos hc,
    by simpa using Chunks.length_le_of_mem cfg.maxBatchSize_pos hc⟩

/-- **Regions and tensor slices.** Whatever is attached to a buffer and
whichever chunks are refused, every region of every `meta_id` is in exactly one
call and every call is handed the slices of its regions, if and only if every
`meta_id` is pairable. -/
theorem pairsRois_iff {metas : List NvDsUserMeta} {map : TreeMap ℕ TensorInputBatch}
    (hgather : gather cfg metas = some map) {order : List ℕ} (horder : order.Perm map.keys)
    {status : ℕ → ℕ → NvDsInferStatus}
    (hstatus : ∀ metaId c, status metaId c = .success ∨ status metaId c = .memError) :
    PairsRois cfg metas (processTensorInput cfg metas status order).1 ↔
      ∀ metaId, Pairable cfg metas status metaId := by
  have hg := gather_gathers metas hgather
  have hnodup : order.Nodup := horder.nodup_iff.mpr TreeMap.nodup_keys
  have hcalls (metaId : ℕ) : ((processTensorInput cfg metas status order).1.filter (·.metaId = metaId)) =
      callsOf cfg metas status metaId := by
    rw [processTensorInput, hgather]
    dsimp only
    rw [submitAll_eq hg hstatus order]
    refine filter_flatMap_callsOf metaId hnodup fun hn => ?_
    by_contra hne
    exact hn (horder.mem_iff.mpr (TreeMap.mem_keys.mpr ((hg.mem metaId).mpr hne)))
  refine forall_congr' fun metaId => ?_
  rw [hcalls, callsOf, frames_submitChunks, Chunks.flatten_chunks, frames_eq_iff]
  have hdesc (chunks : List (List GstNvInferFrame)) (hchunks : ∀ chunk ∈ chunks, chunk ≠ [] ∧
      chunk.length ≤ cfg.maxBatchSize) := @described_submitChunks_iff metaId (status metaId) cfg.maxBatchSize
    (tensorsOf cfg metas metaId) chunks (tensorsOf cfg metas metaId) 0 0 0 hchunks
    (fun n => List.map_congr_left fun t _ => by simp [setBatchDim, moved]) fun _ _ => rfl
  have hnum : ∀ t ∈ tensorsOf cfg metas metaId, t.inferDims.numElements = productOf t.inferDims.d := by
    intro t ht
    obtain ⟨e, -, rfl⟩ := List.mem_map.mp ht
    rfl
  constructor
  · rintro ⟨honce, h⟩
    rw [(frames_eq_iff cfg metas metaId).mpr honce, Chunks.chunks_map] at h
    obtain ⟨hwhole, hrefused⟩ := (hdesc _ (forall_mem_chunks_map cfg _)).mp h
    refine ⟨honce, fun chunk hchunk t ht => ?_, fun i hi hs => ?_⟩
    · rw [← hnum t ht, hwhole _ (List.mem_map_of_mem hchunk) t ht, List.length_map]
    · exact hrefused i (by simpa using hi) (by simpa using hs)
  · intro h
    refine ⟨h.once, ?_⟩
    rw [(frames_eq_iff cfg metas metaId).mpr h.once, Chunks.chunks_map]
    refine (hdesc _ (forall_mem_chunks_map cfg _)).mpr ⟨fun chunk hchunk t ht => ?_, fun i hi hs => ?_⟩
    · obtain ⟨chunk, hmem, rfl⟩ := List.mem_map.mp hchunk
      rw [hnum t ht, h.whole chunk hmem t ht, List.length_map]
    · exact h.refused i (by simpa using hi) (by simpa using hs)

/-- One input layer `in`, regions two by two. -/
def inferConfig (maxBatchSize : ℕ) (h : 0 < maxBatchSize) : NvInferConfig where
  uniqueId := 1
  gpuId := 0
  maxBatchSize := maxBatchSize
  layersInfo := [⟨.float, ⟨[3], 3⟩, 0, "in", 0, true⟩]
  maxBatchSize_pos := h

def region (left : ℕ) : NvDsRoiMeta := ⟨left, 0, ⟨0, 5⟩, 1, 1, 0, 0, none⟩

/-- A tensor of two slices of three floats at address 1000. -/
def twoFloatSlices (metaId : ℕ) : NvDsPreProcessTensorMeta where
  rawTensorBuffer := 1000
  tensorShape := [2, 3]
  dataType := .fp32
  tensorName := "in"
  gpuId := 0
  metaId := metaId

def twoSlices (metaId : ℕ) (rois : List NvDsRoiMeta) : NvDsUserMeta :=
  .preProcessBatch ⟨[1], some (twoFloatSlices metaId), rois⟩

theorem pairsRois_iff_twoSlices :
    PairsRois (inferConfig 2 (by decide)) [twoSlices 0 [region 10, region 20]]
        (processTensorInput (inferConfig 2 (by decide)) [twoSlices 0 [region 10, region 20]]
          (fun _ _ => .success) [0]).1 ↔
      ∀ metaId, Pairable (inferConfig 2 (by decide)) [twoSlices 0 [region 10, region 20]]
        (fun _ _ => .success) metaId :=
  pairsRois_iff (Option.some_get (by decide +kernel)).symm (by decide +kernel) fun _ _ => .inl rfl

/-- The first of two chunks is refused: the second is handed the slice of the
first. -/
theorem refused_unpaired :
    let calls := (processTensorInput (inferConfig 1 (by decide)) [twoSlices 0 [region 10, region 20]]
      (fun _ i => if i = 0 then .memError else .success) [0]).1
    (calls.map fun call => (call.frames.map (·.roiLeft), call.tensors.map (·.buffer))) =
        [([10], [1000]), ([20], [1000])] ∧
      ¬ PairsRois (inferConfig 1 (by decide)) [twoSlices 0 [region 10, region 20]] calls := by
  refine ⟨by decide +kernel, fun h => absurd (h 0) ?_⟩
  decide +kernel

end Infer
end DeepStream
