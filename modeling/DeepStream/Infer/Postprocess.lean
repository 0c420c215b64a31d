/-
# Postprocessing a batch on the heap

`postProcessHost` allocates the array of frame outputs and has each frame parsed
by the postprocessor of its network type, which stores boxes, masks, attributes,
labels and class maps on the heap; `freeBatchOutput` walks the outputs by their
counts and frees what it finds. An array is its address with its cells, `none`
while they are not initialised, and the union of a frame output is `indeterminate`
until a fill function has written it. A result `none` is undefined behaviour.
-/
import DeepStream.Infer.Outputs
import DeepStream.Lib.Heap

namespace DeepStream
namespace Infer

inductive NvDsInferNetworkType where
  | detector | classifier | segmentation | instanceSegmentation | other
  deriving DecidableEq, Repr

inductive NvDsInferClusterMode where
  | groupRectangles | dbscan | nms | dbscanNmsHybrid | none
  deriving DecidableEq, Repr

inductive NvDsInferTensorOrder where
  | kNCHW | kNHWC | kNC
  deriving DecidableEq, Repr

/-! ### Outputs -/

/-- A string on the heap. -/
structure CString where
  ptr : ℕ
  text : String
  deriving DecidableEq, Repr

/-- The size of an instance mask. -/
structure MaskShape where
  maskWidth : ℕ
  maskHeight : ℕ
  maskSize : ℕ
  deriving DecidableEq, Repr

/-- An instance mask on the heap. -/
structure Mask extends MaskShape where
  ptr : ℕ
  deriving DecidableEq, Repr

structure HeapArray (α : Type*) where
  ptr : ℕ
  cells : List (Option α)
  deriving DecidableEq, Repr

structure NvDsInferObject (R : Type*) where
  left : R
  top : R
  width : R
  height : R
  classIndex : ℕ
  label : Option CString
  confidence : R
  mask : Option Mask
  deriving DecidableEq, Repr

structure NvDsInferDetectionOutput (R : Type*) where
  objects : HeapArray (NvDsInferObject R)
  numObjects : ℕ
  deriving DecidableEq, Repr

structure NvDsInferClassificationOutput (R : Type*) where
  attributes : HeapArray (NvDsInferAttribute R CString)
  numAttributes : ℕ
  label : CString
  deriving DecidableEq, Repr

structure NvDsInferSegmentationOutput (R : Type*) where
  width : ℕ
  height : ℕ
  classes : ℕ
  classMap : HeapArray ℤ
  classProbabilityMap : ℕ → R

inductive FrameUnion (R : Type*) where
  | indeterminate
  | detectionOutput (output : NvDsInferDetectionOutput R)
  | classificationOutput (output : NvDsInferClassificationOutput R)
  | segmentationOutput (output : NvDsInferSegmentationOutput R)

structure NvDsInferFrameOutput (R : Type*) where
  outputType : NvDsInferNetworkType
  output : FrameUnion R

/-- `frames` and the arrays of buffers are null until they are allocated. -/
structure NvDsInferContextBatchOutput (R : Type*) where
  frames : Option (HeapArray (NvDsInferFrameOutput R))
  numFrames : ℕ
  outputDeviceBuffers : Option ℕ
  numOutputDeviceBuffers : ℕ
  hostBuffers : Option ℕ
  numHostBuffers : ℕ

def newArray (α : Type*) (n : ℕ) (h : Heap) : HeapArray α × Heap :=
  (⟨h.alloc.1, List.replicate n none⟩, h.alloc.2)

/-- A write of a cell; beyond the array it is undefined. -/
def HeapArray.write {α : Type*} (a : HeapArray α) (i : ℕ) (x : α) : Option (HeapArray α) :=
  if i < a.cells.length then some { a with cells := a.cells.set i (some x) } else none

def strdup (text : String) (h : Heap) : CString × Heap := (⟨h.alloc.1, text⟩, h.alloc.2)

/-- A label that may be missing. -/
def strdupLabel : Option String → Heap → Option CString × Heap
  | none, h => (none, h)
  | some text, h => ((strdup text h).1, (strdup text h).2)

/-! ### Detectors -/

section

variable {R : Type*} [CFloat R]

structure DetectPostprocessor (R : Type*) where
  customBBoxParseFunc : Option (List (OutputLayer R) → NvDsInferNetworkInfo →
    List (NvDsInferDetectionParams R) → Option (List (NvDsInferObjectDetectionInfo R)))
  clusterMode : NvDsInferClusterMode
  perClassDetectionParams : List (NvDsInferDetectionParams R)
  withOpenCV : Bool
  libs : ClusterLibs R

/-- What `initResource` checks: no clustering, and a custom parse function. -/
structure InstanceSegmentPostprocessor (R : Type*) where
  customParseFunc : Option (List (OutputLayer R) → NvDsInferNetworkInfo →
    List (NvDsInferDetectionParams R) → Option (List (NvDsInferInstanceMaskInfo R MaskShape)))
  clusterMode : NvDsInferClusterMode
  perClassDetectionParams : List (NvDsInferDetectionParams R)
  clusterMode_eq : clusterMode = .none
  customParseFunc_isSome : customParseFunc.isSome = true

structure ClassifyPostprocessor (R : Type*) where
  customClassifierParseFunc : Option (List (OutputLayer R) → NvDsInferNetworkInfo → R →
    Option (List (NvDsInferAttribute R String) × String))
  classifierThreshold : R

structure SegmentPostprocessor (R : Type*) where
  segmentationThreshold : R
  segmentationOutputOrder : NvDsInferTensorOrder

/-- The loop that fills the array of objects. -/
def fillObjects (labels : List (List String)) : List (NvDsInferInstanceMaskInfo R Mask) →
    NvDsInferDetectionOutput R → Heap → Option (NvDsInferDetectionOutput R × Heap)
  | [], output, h => some (output, h)
  | obj :: rest, output, h =>
    let label := strdupLabel (labels[obj.classId]?.bind (·[0]?)) h
    (output.objects.write output.numObjects
      { left := obj.left
        top := obj.top
        width := obj.width
        height := obj.height
        classIndex := obj.classId
        label := label.1
        confidence := obj.detectionConfidence
        mask := obj.mask }).bind fun objects =>
      fillObjects labels rest ⟨objects, output.numObjects + 1⟩ label.2

def newDetectionOutput (labels : List (List String)) (totalObjects : ℕ)
    (objects : List (NvDsInferInstanceMaskInfo R Mask)) (h : Heap) :
    Option (NvDsInferDetectionOutput R × Heap) :=
  let array := newArray (NvDsInferObject R) totalObjects h
  fillObjects labels objects ⟨array.1, 0⟩ array.2

def withoutMask (obj : NvDsInferObjectDetectionInfo R) : NvDsInferInstanceMaskInfo R Mask := ⟨obj, none⟩

/-- The functions that keep a list for each class count the lists and fill them
in the order of the classes. -/
def fillPerClass (labels : List (List String)) (lists : List (List (NvDsInferInstanceMaskInfo R Mask)))
    (h : Heap) : Option (NvDsInferDetectionOutput R × Heap) :=
  newDetectionOutput labels (lists.foldl (fun total list => total + list.length) 0) lists.flatten h

/-- What the loops over the classes make of the lists. -/
def eachClass {α : Type*} (params : List (NvDsInferDetectionParams R)) (lists : List (List α))
    (f : NvDsInferDetectionParams R → ℕ → List α → List α) : List (List α) :=
  (params.zip lists).zipIdx.map fun ((params, list), c) => f params c list

namespace DetectPostprocessor

variable (p : DetectPostprocessor R) (labels : List (List String))

def parse (networkInfo : NvDsInferNetworkInfo) (outputLayers : List (OutputLayer R)) :
    Option (List (NvDsInferObjectDetectionInfo R)) :=
  match p.customBBoxParseFunc with
  | some customBBoxParseFunc => customBBoxParseFunc outputLayers networkInfo p.perClassDetectionParams
  | none => parseBoundingBox outputLayers networkInfo p.perClassDetectionParams

/-- `max_element` of an empty vector of lists is dereferenced. -/
def clusterAndFillDetectionOutputNMS (lists : List (List (NvDsInferObjectDetectionInfo R))) (h : Heap) :
    Option (NvDsInferDetectionOutput R × Heap) :=
  if lists.isEmpty then none
  else
    let clusteredBboxes := (eachClass p.perClassDetectionParams lists fun params _ => nmsOfClass params).flatten
    newDetectionOutput labels clusteredBboxes.length (clusteredBboxes.map withoutMask) h

def clusterAndFillDetectionOutputCV (lists : List (List (NvDsInferObjectDetectionInfo R))) (h : Heap) :
    Option (NvDsInferDetectionOutput R × Heap) :=
  fillPerClass labels ((eachClass p.perClassDetectionParams lists (groupRectanglesOfClass p.libs)).map
    (·.map withoutMask)) h

def clusterAndFillDetectionOutputDBSCAN (lists : List (List (NvDsInferObjectDetectionInfo R))) (h : Heap) :
    Option (NvDsInferDetectionOutput R × Heap) :=
  fillPerClass labels ((eachClass p.perClassDetectionParams lists (dbScanOfClass p.libs)).map
    (·.map withoutMask)) h

def clusterAndFillDetectionOutputHybrid (lists : List (List (NvDsInferObjectDetectionInfo R))) (h : Heap) :
    Option (NvDsInferDetectionOutput R × Heap) :=
  p.clusterAndFillDetectionOutputNMS labels
    (eachClass p.perClassDetectionParams lists fun params _ => hybridOfClass p.libs params) h

def fillUnclusteredOutput (lists : List (List (NvDsInferObjectDetectionInfo R))) (h : Heap) :
    Option (NvDsInferDetectionOutput R × Heap) :=
  fillPerClass labels ((eachClass p.perClassDetectionParams lists fun params _ =>
    filterTopKOutputs id params.topK).map (·.map withoutMask)) h

/-- The status, and the output if it was written. -/
def fillDetectionOutput (networkInfo : NvDsInferNetworkInfo) (outputLayers : List (OutputLayer R)) (h : Heap) :
    Option (NvDsInferStatus × Option (NvDsInferDetectionOutput R) × Heap) :=
  match p.parse networkInfo outputLayers with
  | none => some (if p.customBBoxParseFunc.isSome then .customLibFailed else .outputParsingFailed, none, h)
  | some objectList =>
    let objectList := preClusteringThreshold id p.perClassDetectionParams objectList
    let lists := perClassObjectList id p.perClassDetectionParams.length objectList
    let filled := fun r : NvDsInferDetectionOutput R × Heap => (NvDsInferStatus.success, some r.1, r.2)
    match p.clusterMode with
    | .nms => (p.clusterAndFillDetectionOutputNMS labels lists h).map filled
    | .dbscan => (p.clusterAndFillDetectionOutputDBSCAN labels lists h).map filled
    | .groupRectangles =>
      if p.withOpenCV then (p.clusterAndFillDetectionOutputCV labels lists h).map filled
      else some (.success, none, h)
    | .dbscanNmsHybrid => (p.clusterAndFillDetectionOutputHybrid labels lists h).map filled
    | .none => (p.fillUnclusteredOutput labels lists h).map filled

end DetectPostprocessor

/-! ### Instance segmentation -/

/-- The masks that the parse function allocates. -/
def allocMasks : List (NvDsInferInstanceMaskInfo R MaskShape) → Heap →
    List (NvDsInferInstanceMaskInfo R Mask) × Heap
  | [], h => ([], h)
  | obj :: rest, h =>
    match obj.mask with
    | none =>
      let r := allocMasks rest h
      (⟨obj.toNvDsInferObjectDetectionInfo, none⟩ :: r.1, r.2)
    | some shape =>
      let r := allocMasks rest h.alloc.2
      (⟨obj.toNvDsInferObjectDetectionInfo, some ⟨shape, h.alloc.1⟩⟩ :: r.1, r.2)

/-- The objects that the thresholds and the bounds on their number leave. -/
def unclusteredObjects {M : Type*} (params : List (NvDsInferDetectionParams R))
    (objectList : List (NvDsInferInstanceMaskInfo R M)) : List (List (NvDsInferInstanceMaskInfo R M)) :=
  eachClass params
    (perClassObjectList (·.toNvDsInferObjectDetectionInfo) params.length
      (preClusteringThreshold (·.toNvDsInferObjectDetectionInfo) params objectList))
    fun params _ => filterTopKOutputs (·.toNvDsInferObjectDetectionInfo) params.topK

namespace InstanceSegmentPostprocessor

variable (p : InstanceSegmentPostprocessor R) (labels : List (List String))

def parse (networkInfo : NvDsInferNetworkInfo) (outputLayers : List (OutputLayer R)) :
    Option (List (NvDsInferInstanceMaskInfo R MaskShape)) :=
  p.customParseFunc.bind fun customParseFunc =>
    customParseFunc outputLayers networkInfo p.perClassDetectionParams

def fillDetectionOutput (networkInfo : NvDsInferNetworkInfo) (outputLayers : List (OutputLayer R)) (h : Heap) :
    Option (NvDsInferStatus × Option (NvDsInferDetectionOutput R) × Heap) :=
  match p.parse networkInfo outputLayers with
  | none => some (if p.customParseFunc.isSome then .customLibFailed else .outputParsingFailed, none, h)
  | some objectList =>
    let r := allocMasks objectList h
    match p.clusterMode with
    | .none => (fillPerClass labels (unclusteredObjects p.perClassDetectionParams r.1) r.2).map
        fun r => (.success, some r.1, r.2)
    | _ => some (.outputParsingFailed, none, r.2)

end InstanceSegmentPostprocessor

/-! ### Classifiers -/

def allocLabels : List (NvDsInferAttribute R String) → Heap → List (NvDsInferAttribute R CString) × Heap
  | [], h => ([], h)
  | attr :: rest, h =>
    let label := strdupLabel attr.attributeLabel h
    let r := allocLabels rest label.2
    (⟨attr.attributeIndex, attr.attributeValue, attr.attributeConfidence, label.1⟩ :: r.1, r.2)

/-- The loop that copies the attributes, from position `i` on. -/
def fillAttributes : List (NvDsInferAttribute R CString) → ℕ → HeapArray (NvDsInferAttribute R CString) →
    Option (HeapArray (NvDsInferAttribute R CString))
  | [], _, array => some array
  | attr :: rest, i, array => (array.write i attr).bind (fillAttributes rest (i + 1))

namespace ClassifyPostprocessor

variable (p : ClassifyPostprocessor R) (labels : List (List String))

def parse (networkInfo : NvDsInferNetworkInfo) (outputLayers : List (OutputLayer R)) :
    Option (List (NvDsInferAttribute R String) × String) :=
  match p.customClassifierParseFunc with
  | some customClassifierParseFunc => customClassifierParseFunc outputLayers networkInfo p.classifierThreshold
  | none => some (parseAttributesFromSoftmaxLayers labels p.classifierThreshold outputLayers)

def fillClassificationOutput (networkInfo : NvDsInferNetworkInfo) (outputLayers : List (OutputLayer R))
    (h : Heap) : Option (NvDsInferStatus × Option (NvDsInferClassificationOutput R) × Heap) :=
  match p.parse labels networkInfo outputLayers with
  | none => some (.customLibFailed, none, h)
  | some (attributes, attrString) =>
    let r := allocLabels attributes h
    let label := strdup attrString r.2
    let array := newArray (NvDsInferAttribute R CString) r.1.length label.2
    (fillAttributes r.1 0 array.1).map fun array' =>
      (.success, some ⟨array', r.1.length, label.1⟩, array.2)

end ClassifyPostprocessor

/-! ### Segmentation -/

/-- The class of a pixel: the first of highest probability above the threshold,
or -1. -/
def classOfPixel (segmentationThreshold : R) (classes : ℕ) (prob : ℕ → R) : ℤ :=
  ((List.range classes).foldl
    (fun (cls, maxProb) c =>
      if prob c > maxProb ∧ prob c > segmentationThreshold then ((c : ℤ), prob c) else (cls, maxProb))
    (-1, (-1.0 : R))).1

/-- The pixels in the order of the loops over `y` and `x`. -/
def pixels (width height : ℕ) : List (ℕ × ℕ) :=
  (List.range height).flatMap fun y => (List.range width).map fun x => (y, x)

/-- The index `y * width + x`, in 32 bits. -/
def pixelIndex (width : ℕ) (pixel : ℕ × ℕ) : ℕ := (pixel.1 * width + pixel.2) % 2 ^ 32

def fillClassMap (width : ℕ) (cls : ℕ × ℕ → ℤ) : List (ℕ × ℕ) → HeapArray ℤ → Option (HeapArray ℤ)
  | [], classMap => some classMap
  | pixel :: rest, classMap =>
    (classMap.write (pixelIndex width pixel) (cls pixel)).bind (fillClassMap width cls rest)

namespace SegmentPostprocessor

variable (p : SegmentPostprocessor R)

def outputDims (layer : OutputLayer R) : NvDsInferDimsCHW :=
  match p.segmentationOutputOrder with
  | .kNCHW => getDimsCHWFromDims layer.inferDims
  | .kNHWC => getDimsHWCFromDims layer.inferDims
  | .kNC => ⟨0, 0, 0⟩

def indAlongChannel (dims : NvDsInferDimsCHW) (x y c : ℕ) : ℕ :=
  match p.segmentationOutputOrder with
  | .kNCHW => (c * dims.w * dims.h + y * dims.w + x) % 2 ^ 32
  | _ => (dims.c * (y * dims.w + x) + c) % 2 ^ 32

def fillSegmentationOutput (outputLayers : List (OutputLayer R)) (h : Heap) :
    Option (NvDsInferStatus × Option (NvDsInferSegmentationOutput R) × Heap) :=
  match outputLayers with
  | [] => none
  | layer :: _ =>
    let dims := p.outputDims layer
    let array := newArray ℤ (dims.w * dims.h % 2 ^ 32) h
    let cls := fun pixel : ℕ × ℕ => classOfPixel p.segmentationThreshold dims.c fun c =>
      layer.buffer (p.indAlongChannel dims pixel.2 pixel.1 c)
    (fillClassMap dims.w cls (pixels dims.w dims.h) array.1).map fun classMap =>
      (.success, some ⟨dims.w, dims.h, dims.c, classMap, layer.buffer⟩, array.2)

end SegmentPostprocessor

/-! ### Batches -/

inductive PostprocessorKind (R : Type*) where
  | detect (p : DetectPostprocessor R)
  | instanceSegment (p : InstanceSegmentPostprocessor R)
  | classify (p : ClassifyPostprocessor R)
  | segment (p : SegmentPostprocessor R)
  | other

structure InferPostprocessor (R : Type*) where
  networkInfo : NvDsInferNetworkInfo
  labels : List (List String)
  outputLayerInfo : List NvDsInferLayerInfo
  numAllLayers : ℕ
  kind : PostprocessorKind R

/-- A frame output whose union the fill function wrote, or did not. -/
def frameOutput {α : Type*} (outputType : NvDsInferNetworkType) (member : α → FrameUnion R)
    (r : NvDsInferStatus × Option α × Heap) : NvDsInferStatus × NvDsInferFrameOutput R × Heap :=
  (.success, ⟨outputType, r.2.1.elim .indeterminate member⟩, r.2.2)

namespace InferPostprocessor

variable (p : InferPostprocessor R)

/-- The `parseEachBatch` of the five classes: the status of the fill function is
dropped. -/
def parseEachBatch (outputLayers : List (OutputLayer R)) (h : Heap) :
    Option (NvDsInferStatus × NvDsInferFrameOutput R × Heap) :=
  match p.kind with
  | .detect d => (d.fillDetectionOutput p.labels p.networkInfo outputLayers h).map
      (frameOutput .detector .detectionOutput)
  | .instanceSegment s => (s.fillDetectionOutput p.labels p.networkInfo outputLayers h).map
      (frameOutput .instanceSegmentation .detectionOutput)
  | .classify c => (c.fillClassificationOutput p.labels p.networkInfo outputLayers h).map
      (frameOutput .classifier .classificationOutput)
  | .segment s => (s.fillSegmentationOutput outputLayers h).map
      (frameOutput .segmentation .segmentationOutput)
  | .other => some (.success, ⟨.other, .indeterminate⟩, h)

/-- The output layers of a frame in the buffers of the batch. -/
def frameLayers (buffers : ℤ → ℕ → R) (index : ℕ) : List (OutputLayer R) :=
  p.outputLayerInfo.map fun info => ⟨info.layerName, info.inferDims, fun k =>
    buffers info.bindingIndex (info.inferDims.numElements * index + k)⟩

/-- The loop of `postProcessHost` over the frames. -/
def parseFrames (buffers : ℤ → ℕ → R) : List ℕ → HeapArray (NvDsInferFrameOutput R) → Heap →
    Option (NvDsInferStatus × HeapArray (NvDsInferFrameOutput R) × Heap)
  | [], frames, h => some (.success, frames, h)
  | index :: rest, frames, h =>
    (p.parseEachBatch (p.frameLayers buffers index) h).bind fun (status, frame, h) =>
      (frames.write index frame).bind fun frames =>
        if status ≠ .success then some (status, frames, h) else parseFrames buffers rest frames h

def postProcessHost (buffers : ℤ → ℕ → R) (batchSize : ℕ) (batchOutput : NvDsInferContextBatchOutput R)
    (h : Heap) : Option (NvDsInferStatus × NvDsInferContextBatchOutput R × Heap) :=
  let frames := newArray (NvDsInferFrameOutput R) batchSize h
  (p.parseFrames buffers (List.range batchSize) frames.1 frames.2).map fun (status, frames, h) =>
    let batchOutput := { batchOutput with frames := some frames, numFrames := batchSize }
    if status ≠ .success then (status, batchOutput, h)
    else
      (.success, { batchOutput with
        numHostBuffers := p.numAllLayers
        hostBuffers := some h.alloc.1
        numOutputDeviceBuffers := p.outputLayerInfo.length
        outputDeviceBuffers := some h.alloc.2.alloc.1 }, h.alloc.2.alloc.2)

/-- `cuda`: the device is set and the copy of the outputs ends. -/
def dequeueOutputBatch (cuda : Bool) (buffers : ℤ → ℕ → R) (batchSize : ℕ)
    (batchOutput : NvDsInferContextBatchOutput R) (h : Heap) :
    Option (NvDsInferStatus × NvDsInferContextBatchOutput R × Heap) :=
  if cuda then p.postProcessHost buffers batchSize batchOutput h
  else some (.cudaError, batchOutput, h)

end InferPostprocessor

/-! ### Release -/

/-- A loop over the first `n` cells of an array, which reads each of them. -/
def forCells {α : Type*} (f : Heap → α → Option Heap) : ℕ → List (Option α) → Heap → Option Heap
  | 0, _, h => some h
  | n + 1, some x :: cells, h => (f h x).bind (forCells f n cells)
  | _ + 1, _, _ => none

def releaseFrameOutput (frame : NvDsInferFrameOutput R) (h : Heap) : Option Heap :=
  match frame.outputType, frame.output with
  | .detector, .detectionOutput output =>
    (forCells (fun h obj => h.free (obj.label.map (·.ptr))) output.numObjects output.objects.cells h).bind
      fun h => h.free output.objects.ptr
  | .classifier, .classificationOutput output =>
    (forCells (fun h attr => h.free (attr.attributeLabel.map (·.ptr))) output.numAttributes
      output.attributes.cells h).bind
      fun h => (h.free output.label.ptr).bind fun h => h.free output.attributes.ptr
  | .segmentation, .segmentationOutput output => h.free output.classMap.ptr
  | .instanceSegmentation, .detectionOutput output =>
    (forCells (fun h obj => (h.free (obj.label.map (·.ptr))).bind fun h => h.free (obj.mask.map (·.ptr)))
      output.numObjects output.objects.cells h).bind
      fun h => h.free output.objects.ptr
  | .other, _ => some h
  | _, _ => none

def freeBatchOutput (batchOutput : NvDsInferContextBatchOutput R) (h : Heap) : Option Heap :=
  (forCells (fun h frame => releaseFrameOutput frame h) batchOutput.numFrames
    ((batchOutput.frames.map (·.cells)).getD []) h).bind
    fun h => (h.free (batchOutput.frames.map (·.ptr))).bind
      fun h => (h.free batchOutput.hostBuffers).bind
        fun h => h.free batchOutput.outputDeviceBuffers

/-! ### What a client relies on -/

/-- All `n` elements of the array, and no others, are initialised. -/
def HeapArray.Filled {α : Type*} (a : HeapArray α) (n : ℕ) : Prop :=
  a.cells.length = n ∧ ∀ cell ∈ a.cells, cell.isSome = true

/-- The member that the output type names is there and its count is right. -/
def NvDsInferFrameOutput.Defined (frame : NvDsInferFrameOutput R) : Prop :=
  match frame.outputType, frame.output with
  | .detector, .detectionOutput output => output.objects.Filled output.numObjects
  | .instanceSegmentation, .detectionOutput output => output.objects.Filled output.numObjects
  | .classifier, .classificationOutput output => output.attributes.Filled output.numAttributes
  | .segmentation, .segmentationOutput output => output.classMap.Filled (output.width * output.height)
  | .other, _ => True
  | _, _ => False

/-- The count of the elements of a frame output. -/
def NvDsInferFrameOutput.count (frame : NvDsInferFrameOutput R) : ℕ :=
  match frame.output with
  | .detectionOutput output => output.numObjects
  | .classificationOutput output => output.numAttributes
  | .segmentationOutput output => output.width * output.height
  | .indeterminate => 0

namespace InferPostprocessor

variable (p : InferPostprocessor R)

/-- The parser of the network type accepts the outputs of the frame. -/
def Parses (outputLayers : List (OutputLayer R)) : Prop :=
  match p.kind with
  | .detect d => (d.parse p.networkInfo outputLayers).isSome = true
  | .instanceSegment s => (s.parse p.networkInfo outputLayers).isSome = true
  | .classify c => (c.parse p.labels p.networkInfo outputLayers).isSome = true
  | .segment _ => True
  | .other => True

/-- A dequeue fails, or all its frames are defined, empty where the parser
failed, and their release leaves the heap as it was. -/
def DequeueOk (cuda : Bool) (buffers : ℤ → ℕ → R) (batchSize : ℕ)
    (batchOutput : NvDsInferContextBatchOutput R) (h : Heap) : Prop :=
  ∃ status out h', p.dequeueOutputBatch cuda buffers batchSize batchOutput h = some (status, out, h') ∧
    (status = .success →
      (∃ frames, out.frames = some frames ∧ out.numFrames = batchSize ∧ frames.Filled batchSize ∧
        ∀ index frame, frames.cells[index]? = some (some frame) →
          frame.Defined ∧ (¬ p.Parses (p.frameLayers buffers index) → frame.count = 0)) ∧
      ∃ h'', freeBatchOutput out h' = some h'' ∧ h''.live = h.live)

/-- The outputs of the frame can be stored: its parser accepts them and the
clustering mode and the sizes are ones the fill function handles. -/
def Fills (outputLayers : List (OutputLayer R)) : Prop :=
  p.Parses outputLayers ∧
    match p.kind with
    | .detect d => (d.clusterMode = .groupRectangles → d.withOpenCV = true) ∧
        (d.clusterMode = .nms ∨ d.clusterMode = .dbscanNmsHybrid → d.perClassDetectionParams ≠ [])
    | .segment s => ∃ layer ∈ outputLayers.head?, (s.outputDims layer).w * (s.outputDims layer).h < 2 ^ 32
    | _ => True

/-- No object that has a mask is filtered out. -/
def KeepsMasks (outputLayers : List (OutputLayer R)) : Prop :=
  match p.kind with
  | .instanceSegment s => ∀ parsed ∈ s.parse p.networkInfo outputLayers,
      (unclusteredObjects s.perClassDetectionParams parsed).flatten.countP (·.mask.isSome) =
        parsed.countP (·.mask.isSome)
  | _ => True

end InferPostprocessor

end

end Infer
end DeepStream
