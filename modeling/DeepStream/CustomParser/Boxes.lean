/-
# The custom parsers of boxes

The parsers of `nvdsinfer_custombboxparser.cpp` for Resnet, TfSSD, MaskRCNN, NMS, BatchedNMS and
EfficientDet. Each goes over the detections of its tensors; what the body of its loop makes of one
comes with the raw box and the mask, and a box is read as a whole. The conversion of a number that
does not fit is not defined. Messages are left out, and with them the variable `ENABLE_DEBUG`; so is
the room that a grid takes on the stack.

`NvDsInferParseCustomResnet` keeps the indices and the dimensions of its layers in static variables
from the first call on.
-/
import DeepStream.CustomParser.Tensors

namespace DeepStream
namespace CustomParser
namespace Boxes

open Infer (NvDsInferDimsCHW getDimsCHWFromDims)

abbrev Object := Infer.NvDsInferObjectDetectionInfo ℚ

/-- A threshold for each class, as the context sets them. -/
structure NvDsInferParseDetectionParams where
  numClassesConfigured : ℕ
  perClassPreclusterThreshold : List ℚ
  length_eq : perClassPreclusterThreshold.length = numClassesConfigured
  classes_pos : 0 < numClassesConfigured

/-- `perClassThreshold[0]`. -/
def NvDsInferParseDetectionParams.firstThreshold (params : NvDsInferParseDetectionParams) : ℚ :=
  params.perClassPreclusterThreshold.getD 0 0

/-- The corners that the tensors give, in pixels of the network. -/
structure RawBox where
  x1 : ℚ
  y1 : ℚ
  x2 : ℚ
  y2 : ℚ
  deriving DecidableEq, Repr

structure Detection where
  raw : RawBox
  object : Object
  mask : Option (List ℚ) := none
  deriving DecidableEq, Repr

/-! ### Reads and conversions -/

def fourAt (l : List ℚ) (k : ℕ) : Option (ℚ × ℚ × ℚ × ℚ) := do
  let a ← l[k]?
  let b ← l[k + 1]?
  let c ← l[k + 2]?
  let d ← l[k + 3]?
  some (a, b, c, d)

/-- A `float` as an `unsigned int`. -/
def toUnsigned (x : ℚ) : Option ℕ := if -1 < x ∧ x < 2 ^ 32 then some x.floor.toNat else none

/-- A `float` as an `int`. -/
def toInt (x : ℚ) : Option ℤ :=
  if -(2 ^ 31) - 1 < x ∧ x < 2 ^ 31 then some (if 0 ≤ x then x.floor else x.ceil) else none

/-- The class that `(unsigned int)` and `(int)` give, which the code takes for the same. -/
def classOf (numClassesConfigured : ℕ) (x : ℚ) : Option (Option ℕ) := do
  let classId ← toUnsigned x
  if numClassesConfigured ≤ classId then some none
  else if classId < 2 ^ 31 then some (some classId) else none

/-- The body of a loop makes a detection, or none. -/
def collect {ι : Type} (body : ι → Option (Option Detection)) (found : List Detection) (i : ι) :
    Option (List Detection) := (body i).map fun d => found ++ d.toList

section

variable (outputLayersInfo : List NvDsInferLayerInfo) (networkInfo : NvDsInferNetworkInfo)
variable (detectionParams : NvDsInferParseDetectionParams)

/-! ### Resnet -/

/-- The static variables of `NvDsInferParseCustomResnet`. -/
structure Statics where
  bboxLayer : Option (ℕ × NvDsInferDimsCHW) := none
  covLayer : Option (ℕ × NvDsInferDimsCHW) := none
  deriving DecidableEq, Repr

/-- The loop that looks for a layer by `strcmp`, which is not defined for a layer without a name. -/
def findLayer (name : String) : List NvDsInferLayerInfo → ℕ → Option (Option (ℕ × NvDsInferDimsCHW))
  | [], _ => some none
  | layer :: layers, i => do
    let layerName ← layer.layerName
    if layerName = name then some (some (i, getDimsCHWFromDims layer.inferDims)) else findLayer name layers (i + 1)

/-- `DIVIDE_AND_ROUND_UP` of two `unsigned int`. -/
def stride (side grid : ℕ) : ℕ := (side + grid - 1) % 2 ^ 32 / grid

/-- One point of the grid, of one class. -/
def resnetBody (cov bbox : List ℚ) (covDims bboxDims : NvDsInferDimsCHW) (p : ℕ × ℕ × ℕ) : Option (Option Detection) :=
  let (c, h, w) := p
  let gridSize := covDims.w * covDims.h
  let i := w + h * covDims.w
  let outputX1 := c * 4 * bboxDims.h * bboxDims.w % 2 ^ 32
  let gcCenterX := Infer.gcCenter (stride networkInfo.width bboxDims.w) w
  let gcCenterY := Infer.gcCenter (stride networkInfo.height bboxDims.h) h
  do
    if 2 ^ 31 ≤ c * gridSize + i then none
    else
    let detectionConfidence ← cov[c * gridSize + i]?
    if detectionConfidence < detectionParams.perClassPreclusterThreshold.getD c 0 then some none
    else do
      let x1 ← bbox[outputX1 + i]?
      let y1 ← bbox[outputX1 + gridSize + i]?
      let x2 ← bbox[outputX1 + gridSize + gridSize + i]?
      let y2 ← bbox[outputX1 + gridSize + gridSize + gridSize + i]?
      let raw : RawBox := ⟨(x1 - gcCenterX) * -35, (y1 - gcCenterY) * -35, (x2 + gcCenterX) * 35, (y2 + gcCenterY) * 35⟩
      let left := clip networkInfo.width raw.x1
      let top := clip networkInfo.height raw.y1
      some (some ⟨raw, ⟨c, left, top, clip networkInfo.width raw.x2 - left + 1,
        clip networkInfo.height raw.y2 - top + 1, detectionConfidence⟩, none⟩)

/-- The points of the grid in the order of the loops. -/
def gridPoints (numClasses gridH gridW : ℕ) : List (ℕ × ℕ × ℕ) :=
  (List.range numClasses).flatMap fun c => (List.range gridH).flatMap fun h => (List.range gridW).map fun w => (c, h, w)

/-- With the indices and dimensions that are kept. -/
def resnetRun (bboxLayer covLayer : ℕ × NvDsInferDimsCHW) : Option (List Detection) := do
  if bboxLayer.2.w = 0 ∨ bboxLayer.2.h = 0 ∨ 2 ^ 31 ≤ covLayer.2.w * covLayer.2.h then none
  else
    let cov ← outputLayersInfo[covLayer.1]?
    let bbox ← outputLayersInfo[bboxLayer.1]?
    (gridPoints (min covLayer.2.c detectionParams.numClassesConfigured) covLayer.2.h covLayer.2.w).foldlM
      (collect (resnetBody networkInfo detectionParams cov.floats bbox.floats covLayer.2 bboxLayer.2)) []

/-- The layer that is kept, or else the one that is found. -/
def keptLayer (kept : Option (ℕ × NvDsInferDimsCHW)) (name : String) : Option (Option (ℕ × NvDsInferDimsCHW)) :=
  match kept with
  | some layer => some (some layer)
  | none => findLayer name outputLayersInfo 0

def nvDsInferParseCustomResnet (s : Statics) : Option (Statics × Bool × List Detection) := do
  match ← keptLayer outputLayersInfo s.bboxLayer "output_bbox/BiasAdd" with
  | none => some (s, false, [])
  | some bbox => do
    match ← keptLayer outputLayersInfo s.covLayer "output_cov/Sigmoid" with
    | none => some ({ s with bboxLayer := some bbox }, false, [])
    | some cov => (resnetRun outputLayersInfo networkInfo detectionParams bbox cov).map fun objectList =>
      (⟨some bbox, some cov⟩, true, objectList)

/-! ### TfSSD -/

def tfSSDCount (classLayer : NvDsInferLayerInfo) (numDetectionLayer : Option NvDsInferLayerInfo) : Option ℕ := do
  let numDetections ← match numDetectionLayer.bind NvDsInferLayerInfo.buffer with
    | none => some (classLayer.dim 0)
    | some buffer => do
      let n ← buffer.floats[0]?
      let n ← toInt n
      some (n % 2 ^ 32).toNat
  let numDetections := if numDetections > classLayer.dim 0 then classLayer.dim 0 else numDetections
  -- `std::max<int>`
  some (if numDetections < 2 ^ 31 then numDetections else 0)

def tfSSDBody (scores classes boxes : List ℚ) (i : ℕ) : Option (Option Detection) := do
  let detectionConfidence ← scores[i]?
  let classValue ← classes[i]?
  let classId ← toUnsigned classValue
  match detectionParams.perClassPreclusterThreshold[classId]? with
  | none => some none
  | some threshold =>
    if detectionConfidence < threshold then some none
    else do
      let (y1, x1, y2, x2) ← fourAt boxes (i * 4 % 2 ^ 32)
      let raw : RawBox := ⟨x1 * networkInfo.width, y1 * networkInfo.height, x2 * networkInfo.width, y2 * networkInfo.height⟩
      let rectX1f := clip networkInfo.width raw.x1
      let rectX2f := clip networkInfo.width raw.x2
      let rectY1f := clip networkInfo.height raw.y1
      let rectY2f := clip networkInfo.height raw.y2
      if rectX2f ≤ rectX1f ∨ rectY2f ≤ rectY1f then some none
      else if rectX2f - rectX1f = 0 ∨ rectY2f - rectY1f = 0 then some none
      else some (some ⟨raw, ⟨classId, rectX1f, rectY1f, rectX2f - rectX1f, rectY2f - rectY1f, detectionConfidence⟩, none⟩)

def nvDsInferParseCustomTfSSD : Option (Bool × List Detection) :=
  match layerFinder outputLayersInfo "detection_scores", layerFinder outputLayersInfo "detection_classes",
    layerFinder outputLayersInfo "detection_boxes" with
  | some scoreLayer, some classLayer, some boxLayer => do
    let numDetections ← tfSSDCount classLayer (layerFinder outputLayersInfo "num_detections")
    let objectList ← (List.range numDetections).foldlM
      (collect (tfSSDBody networkInfo detectionParams scoreLayer.floats classLayer.floats boxLayer.floats)) []
    some (true, objectList)
  | _, _, _ => some (false, [])

/-! ### MaskRCNN -/

/-- The mask that is copied; the array for it has the size of an `unsigned int`. -/
def maskAt (masks : List ℚ) (size k : ℕ) : Option (List ℚ) :=
  if size < 2 ^ 32 ∧ k * size + size ≤ masks.length then some ((masks.drop (k * size)).take size) else none

/-- One `MrcnnRawDetection`, of six numbers. -/
def mrcnnBody (detections masks : List ℚ) (maskSize i : ℕ) : Option (Option Detection) := do
  let score ← detections[6 * i + 5]?
  if score < detectionParams.firstThreshold then some none
  else do
    let (y1, x1, y2, x2) ← fourAt detections (6 * i)
    let width := clip networkInfo.width x2 - x1
    let height := clip networkInfo.height y2 - y1
    if width ≤ 0 ∨ height ≤ 0 then some none
    else do
      let classValue ← detections[6 * i + 4]?
      let classValue ← toInt classValue
      let classId := (classValue % 2 ^ 32).toNat
      let mask ← maskAt masks maskSize (i * detectionParams.numClassesConfigured % 2 ^ 32 + classId)
      some (some ⟨⟨x1, y1, x2, y2⟩,
        ⟨classId, clip networkInfo.width x1, clip networkInfo.height y1, width, height, score⟩, some mask⟩)

/-- The two parsers of MaskRCNN differ in the name of a layer. -/
def parseMrcnn (maskName : String) : Option (Bool × List Detection) :=
  match layerFinder outputLayersInfo "generate_detections", layerFinder outputLayersInfo maskName with
  | some detectionLayer, some maskLayer =>
    if maskLayer.inferDims.d.length ≠ 4 then some (false, [])
    else do
      let objectList ← (List.range (maskLayer.dim 0)).foldlM (collect (mrcnnBody networkInfo detectionParams
        detectionLayer.floats maskLayer.floats (maskLayer.dim 3 * maskLayer.dim 2))) []
      some (true, objectList)
  | _, _ => some (false, [])

def nvDsInferParseCustomMrcnnTLT : Option (Bool × List Detection) :=
  parseMrcnn outputLayersInfo networkInfo detectionParams "mask_head/mask_fcn_logits/BiasAdd"

def nvDsInferParseCustomMrcnnTLTV2 : Option (Bool × List Detection) :=
  parseMrcnn outputLayersInfo networkInfo detectionParams "mask_fcn_logits/BiasAdd"

/-! ### NMS -/

/-- One detection of seven numbers. -/
def nmsBody (outNms : List ℚ) (i : ℕ) : Option (Option Detection) := do
  if 2 ^ 31 ≤ i * 7 then none
  else
    let detectionConfidence ← outNms[i * 7 + 2]?
    if detectionConfidence < detectionParams.firstThreshold then some none
    else do
      let classValue ← outNms[i * 7 + 1]?
      -- `assert`
      let classId ← (← classOf detectionParams.numClassesConfigured classValue)
      let (x1, y1, x2, y2) ← fourAt outNms (i * 7 + 3)
      some (some ⟨⟨x1 * networkInfo.width, y1 * networkInfo.height, x2 * networkInfo.width, y2 * networkInfo.height⟩,
        ⟨classId, clip networkInfo.width (x1 * networkInfo.width), clip networkInfo.height (y1 * networkInfo.height),
          clip networkInfo.width ((x2 - x1) * networkInfo.width),
          clip networkInfo.height ((y2 - y1) * networkInfo.height), detectionConfidence⟩, none⟩)

def nvDsInferParseCustomNMSTLT : Option (Bool × List Detection) :=
  match outputLayersInfo with
  | [outNms, keepCount] => do
    let keepCount ← keepCount.ints[0]?
    let objectList ← (List.range keepCount.toNat).foldlM (collect (nmsBody networkInfo detectionParams outNms.floats)) []
    some (true, objectList)
  | _ => some (false, [])

/-! ### BatchedNMS -/

def batchedNmsBody (bboxes scores classes : List ℚ) (i : ℕ) : Option (Option Detection) := do
  let detectionConfidence ← scores[i]?
  if detectionConfidence < detectionParams.firstThreshold then some none
  else do
    let classValue ← classes[i]?
    match ← classOf detectionParams.numClassesConfigured classValue with
    | none => some none
    | some classId => do
      if 2 ^ 31 ≤ 4 * i then none
      else
        let (x1, y1, x2, y2) ← fourAt bboxes (4 * i)
        if x2 < x1 ∨ y2 < y1 then some none
        else
          let left := clip networkInfo.width (x1 * networkInfo.width)
          let top := clip networkInfo.height (y1 * networkInfo.height)
          let width := clip networkInfo.width (x2 * networkInfo.width) - left
          let height := clip networkInfo.height (y2 * networkInfo.height) - top
          if height < 0 ∨ width < 0 then some none
          else some (some ⟨⟨x1 * networkInfo.width, y1 * networkInfo.height, x2 * networkInfo.width,
            y2 * networkInfo.height⟩, ⟨classId, left, top, width, height, detectionConfidence⟩, none⟩)

/-- The loop, which ends when the list has more than `keep_top_k` objects; `count` were there before. -/
def batchedNmsLoop (bboxes scores classes : List ℚ) (count : ℕ) : List ℕ → List Detection → Option (List Detection)
  | [], found => some found
  | i :: is, found =>
    if count + found.length ≤ 200 then do
      let found ← collect (batchedNmsBody networkInfo detectionParams bboxes scores classes) found i
      batchedNmsLoop bboxes scores classes count is found
    else some found

def nvDsInferParseCustomBatchedNMSTLT (count : ℕ) : Option (Bool × List Detection) :=
  match outputLayersInfo with
  | [keepCount, bboxes, scores, classes] => do
    let keepCount ← keepCount.ints[0]?
    let objectList ← batchedNmsLoop networkInfo detectionParams bboxes.floats scores.floats classes.floats count
      (List.range keepCount.toNat) []
    some (true, objectList)
  | _ => some (false, [])

/-! ### EfficientDet -/

def efficientDetBody (bboxes scores classes : List ℚ) (i : ℕ) : Option (Option Detection) := do
  let detectionConfidence ← scores[i]?
  if detectionConfidence < detectionParams.firstThreshold then some none
  else do
    let classValue ← classes[i]?
    -- `assert`
    let classId ← (← classOf detectionParams.numClassesConfigured classValue)
    if 2 ^ 31 ≤ 4 * i then none
    else
      let (y1, x1, y2, x2) ← fourAt bboxes (4 * i)
      if y2 < y1 ∨ x2 < x1 then some none
      else some (some ⟨⟨x1, y1, x2, y2⟩, ⟨classId, clip networkInfo.width x1, clip networkInfo.height y1,
        clip networkInfo.width (x2 - x1), clip networkInfo.height (y2 - y1), detectionConfidence⟩, none⟩)

/-- The greatest of the numbers of the boxes, 0 if none is greater. -/
def maxBbox (bboxes : List ℚ) : ℚ := bboxes.foldl (fun maxBbox x => if maxBbox < x then x else maxBbox) 0

def nvDsInferParseCustomEfficientDetTAO : Option (Bool × List Detection) :=
  match outputLayersInfo with
  | [keepCount, bboxes, scores, classes] => do
    let numElements := if bboxes.inferDims.numElements < 2 ^ 31 then bboxes.inferDims.numElements else 0
    if bboxes.floats.length < numElements then none
    else
      let keepCount ← keepCount.ints[0]?
      if keepCount ≤ 0 then some (true, [])
      else if maxBbox (bboxes.floats.take numElements) < 2 then none
      else do
        let objectList ← (List.range keepCount.toNat).foldlM
          (collect (efficientDetBody networkInfo detectionParams bboxes.floats scores.floats classes.floats)) []
        some (true, objectList)
  | _ => some (false, [])

end

/-! ### Calls -/

inductive ParserKind where
  | resnet | tfSSD | mrcnnTLT | mrcnnTLTV2 | nmsTLT | batchedNMSTLT | efficientDetTAO
  deriving DecidableEq, Repr

/-- A call of one of the parsers, with `count` objects in the list that it appends to. -/
structure Call where
  parser : ParserKind
  outputLayersInfo : List NvDsInferLayerInfo
  networkInfo : NvDsInferNetworkInfo
  detectionParams : NvDsInferParseDetectionParams
  count : ℕ

def Call.parse (c : Call) (s : Statics) : Option (Statics × Bool × List Detection) :=
  match c.parser with
  | .resnet => nvDsInferParseCustomResnet c.outputLayersInfo c.networkInfo c.detectionParams s
  | .tfSSD => (nvDsInferParseCustomTfSSD c.outputLayersInfo c.networkInfo c.detectionParams).map (s, ·)
  | .mrcnnTLT => (nvDsInferParseCustomMrcnnTLT c.outputLayersInfo c.networkInfo c.detectionParams).map (s, ·)
  | .mrcnnTLTV2 => (nvDsInferParseCustomMrcnnTLTV2 c.outputLayersInfo c.networkInfo c.detectionParams).map (s, ·)
  | .nmsTLT => (nvDsInferParseCustomNMSTLT c.outputLayersInfo c.networkInfo c.detectionParams).map (s, ·)
  | .batchedNMSTLT =>
    (nvDsInferParseCustomBatchedNMSTLT c.outputLayersInfo c.networkInfo c.detectionParams c.count).map (s, ·)
  | .efficientDetTAO => (nvDsInferParseCustomEfficientDetTAO c.outputLayersInfo c.networkInfo c.detectionParams).map (s, ·)

end Boxes
end CustomParser
end DeepStream
