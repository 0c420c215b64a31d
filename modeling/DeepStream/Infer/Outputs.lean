/-
# Parsing and clustering of the outputs of a network

The postprocessors read the output layers of one frame and produce plain lists:
detected boxes, boxes with an instance mask, attributes of a classifier. The
float type is a parameter with the operations the code applies to it and without
laws; the custom parse functions, the DBSCAN library and OpenCV are parameters
too. A mask and a label are here what they say; where they are stored is the
business of `DeepStream.Infer.Postprocess`.
-/
import DeepStream.Infer.Layers
import Mathlib.Data.List.Infix

namespace DeepStream
namespace Infer

/-- The operations on `float`. -/
class CFloat (R : Type*) extends Zero R, Add R, Sub R, Mul R, Div R, Neg R, LT R, LE R, NatCast R,
    OfScientific R, BEq R where
  decidableLT : DecidableLT R
  decidableLE : DecidableLE R

instance decidableLTOfCFloat {R : Type*} [CFloat R] : DecidableLT R := CFloat.decidableLT

instance decidableLEOfCFloat {R : Type*} [CFloat R] : DecidableLE R := CFloat.decidableLE

instance : CFloat ℚ where
  decidableLT := inferInstance
  decidableLE := inferInstance

structure NvDsInferNetworkInfo where
  width : ℕ
  height : ℕ
  channels : ℕ
  deriving DecidableEq, Repr

structure NvDsInferDimsCHW where
  c : ℕ
  h : ℕ
  w : ℕ
  deriving DecidableEq, Repr

def getDimsCHWFromDims (dims : NvDsInferDims) : NvDsInferDimsCHW where
  c := dims.d.getD 0 0
  h := dims.d.getD 1 0
  w := dims.d.getD 2 0

def getDimsHWCFromDims (dims : NvDsInferDims) : NvDsInferDimsCHW where
  h := dims.d.getD 0 0
  w := dims.d.getD 1 0
  c := dims.d.getD 2 0

/-- An output layer with the values of one frame. -/
structure OutputLayer (R : Type*) where
  layerName : String
  inferDims : NvDsInferDims
  buffer : ℕ → R

structure NvDsInferObjectDetectionInfo (R : Type*) where
  classId : ℕ
  left : R
  top : R
  width : R
  height : R
  detectionConfidence : R
  deriving DecidableEq, Repr

/-- `M` is what stands for a mask. -/
structure NvDsInferInstanceMaskInfo (R M : Type*) extends NvDsInferObjectDetectionInfo R where
  mask : Option M
  deriving DecidableEq, Repr

/-- `L` is what stands for a label. -/
structure NvDsInferAttribute (R L : Type*) where
  attributeIndex : ℕ
  attributeValue : ℕ
  attributeConfidence : R
  attributeLabel : Option L
  deriving DecidableEq, Repr

structure NvDsInferDetectionParams (R : Type*) where
  preClusterThreshold : R
  postClusterThreshold : R
  eps : R
  minBoxes : ℤ
  groupThreshold : ℤ
  minScore : R
  nmsIOUThreshold : R
  topK : ℤ
  deriving DecidableEq, Repr

structure NvDsInferDBScanClusteringParams (R : Type*) where
  eps : R
  minBoxes : ℤ
  enableATHRFilter : Bool
  thresholdATHR : R
  minScore : R
  deriving DecidableEq, Repr

section

variable {R : Type*} [CFloat R]

/-! ### Parsing boxes -/

def strstr (s t : String) : Bool := decide (t.toList <:+: s.toList)

/-- The last layer with the text in its name. -/
def lastLayerNamed (outputLayersInfo : List (OutputLayer R)) (text : String) : Option (OutputLayer R) :=
  outputLayersInfo.foldl (fun found layer => if strstr layer.layerName text then some layer else found) none

def divideAndRoundUp (a b : ℕ) : ℕ := (a + b - 1) / b

def bboxNorm : R := 35.0

def gcCenter (stride i : ℕ) : R := (((i * stride : ℕ) : R) + 0.5) / bboxNorm

/-- Clipping of a coordinate to a side of the frame. -/
def clipTo (side : ℕ) (x : R) : R :=
  let x := if (side : R) ≤ x then ((side - 1 : ℕ) : R) else x
  if x < 0 then 0 else x

/-- The body of the loops of `parseBoundingBox` for one point of the grid. -/
def parseGridPoint (networkInfo : NvDsInferNetworkInfo) (preClusterThreshold : R)
    (coverage bbox : OutputLayer R) (classIndex h w : ℕ) : Option (NvDsInferObjectDetectionInfo R) :=
  let coverageDims := getDimsCHWFromDims coverage.inferDims
  let bboxDims := getDimsCHWFromDims bbox.inferDims
  let gridSize := coverageDims.w * coverageDims.h
  let strideX := divideAndRoundUp networkInfo.width bboxDims.w
  let strideY := divideAndRoundUp networkInfo.height bboxDims.h
  let outputX1 := classIndex * 4 * bboxDims.h * bboxDims.w
  let i := w + h * coverageDims.w
  let confidence := coverage.buffer (classIndex * gridSize + i)
  if confidence < preClusterThreshold then none
  else
    let rectX1 := clipTo networkInfo.width ((bbox.buffer (outputX1 + i) - gcCenter strideX w) * -bboxNorm)
    let rectY1 := clipTo networkInfo.height ((bbox.buffer (outputX1 + gridSize + i) - gcCenter strideY h) * -bboxNorm)
    let rectX2 := clipTo networkInfo.width ((bbox.buffer (outputX1 + 2 * gridSize + i) + gcCenter strideX w) * bboxNorm)
    let rectY2 := clipTo networkInfo.height ((bbox.buffer (outputX1 + 3 * gridSize + i) + gcCenter strideY h) * bboxNorm)
    if rectX2 - rectX1 < 0 ∨ rectY2 - rectY1 < 0 then none
    else some ⟨classIndex, rectX1, rectY1, rectX2 - rectX1, rectY2 - rectY1, confidence⟩

def parseBoundingBox (outputLayersInfo : List (OutputLayer R)) (networkInfo : NvDsInferNetworkInfo)
    (detectionParams : List (NvDsInferDetectionParams R)) : Option (List (NvDsInferObjectDetectionInfo R)) :=
  match lastLayerNamed outputLayersInfo "cov", lastLayerNamed outputLayersInfo "bbox" with
  | some coverage, some bbox =>
    let dims := getDimsCHWFromDims coverage.inferDims
    some <| (detectionParams.take dims.c).zipIdx.flatMap fun (params, classIndex) =>
      (List.range dims.h).flatMap fun h =>
        (List.range dims.w).filterMap fun w =>
          parseGridPoint networkInfo params.preClusterThreshold coverage bbox classIndex h w
  | _, _ => none

/-! ### Filters -/

/-- The test of `preClusteringThreshold`: which objects stay. -/
def meetsPreClusterThreshold (detectionParams : List (NvDsInferDetectionParams R))
    (obj : NvDsInferObjectDetectionInfo R) : Bool :=
  match detectionParams[obj.classId]? with
  | none => false
  | some params => !decide (obj.detectionConfidence < params.preClusterThreshold)

/-- `α` is one of the two kinds of detected objects. -/
def preClusteringThreshold {α : Type*} (info : α → NvDsInferObjectDetectionInfo R)
    (detectionParams : List (NvDsInferDetectionParams R)) (objectList : List α) : List α :=
  objectList.filter fun obj => meetsPreClusterThreshold detectionParams (info obj)

def filterTopKOutputs {α : Type*} (info : α → NvDsInferObjectDetectionInfo R) (topK : ℤ)
    (objectList : List α) : List α :=
  if topK < 0 then objectList
  else
    (objectList.mergeSort fun obj1 obj2 =>
      !decide ((info obj2).detectionConfidence > (info obj1).detectionConfidence)).take topK.toNat

/-- The list of each class. -/
def perClassObjectList {α : Type*} (info : α → NvDsInferObjectDetectionInfo R) (numDetectedClasses : ℕ)
    (objectList : List α) : List (List α) :=
  (List.range numDetectedClasses).map fun c => objectList.filter fun obj => (info obj).classId = c

/-! ### Clustering -/

def overlap1D (x1min x1max x2min x2max : R) : R :=
  let (x1max, x2min, x2max) := if x1min > x2min then (x2max, x1min, x1max) else (x1max, x2min, x2max)
  if x1max < x2min then 0 else (if x2max < x1max then x2max else x1max) - x2min

def computeIoU (bbox1 bbox2 : NvDsInferObjectDetectionInfo R) : R :=
  let overlapX := overlap1D bbox1.left (bbox1.left + bbox1.width) bbox2.left (bbox2.left + bbox2.width)
  let overlapY := overlap1D bbox1.top (bbox1.top + bbox1.height) bbox2.top (bbox2.top + bbox2.height)
  let area1 := bbox1.width * bbox1.height
  let area2 := bbox2.width * bbox2.height
  let overlap2D := overlapX * overlapY
  let u := area1 + area2 - overlap2D
  if u == 0 then 0 else overlap2D / u

/-- The positions kept, in the order of `scoreIndex`. -/
def nonMaximumSuppression (scoreIndex : List (R × ℕ)) (bbox : List (NvDsInferObjectDetectionInfo R))
    (nmsThreshold : R) : List ℕ :=
  scoreIndex.foldl
    (fun indices i =>
      let keep := indices.all fun kept =>
        match bbox[i.2]?, bbox[kept]? with
        | some b, some b' => decide (computeIoU b b' ≤ nmsThreshold)
        | _, _ => false
      if keep then indices ++ [i.2] else indices) []

/-- What `clusterAndFillDetectionOutputNMS` keeps of one class. -/
def nmsOfClass (params : NvDsInferDetectionParams R) (objects : List (NvDsInferObjectDetectionInfo R)) :
    List (NvDsInferObjectDetectionInfo R) :=
  let scoreIndex := (objects.zipIdx.map fun (obj, r) => (obj.detectionConfidence, r)).mergeSort
    fun pair1 pair2 => !decide (pair2.1 > pair1.1)
  let indices := nonMaximumSuppression scoreIndex objects params.nmsIOUThreshold
  let postNMSBboxes := (indices.filterMap fun idx => objects[idx]?).filter fun obj =>
    decide (obj.detectionConfidence > params.postClusterThreshold)
  filterTopKOutputs id params.topK postNMSBboxes

/-- The libraries that the clustering calls. -/
structure ClusterLibs (R : Type*) where
  dbScanCluster : NvDsInferDBScanClusteringParams R → List (NvDsInferObjectDetectionInfo R) →
    List (NvDsInferObjectDetectionInfo R)
  dbScanClusterHybrid : NvDsInferDBScanClusteringParams R → List (NvDsInferObjectDetectionInfo R) →
    List (NvDsInferObjectDetectionInfo R)
  groupRectangles : ℤ → R → List (NvDsInferObjectDetectionInfo R) → List (NvDsInferObjectDetectionInfo R)

def clusteringParams (params : NvDsInferDetectionParams R) : NvDsInferDBScanClusteringParams R where
  eps := params.eps
  minBoxes := params.minBoxes
  enableATHRFilter := true
  thresholdATHR := 60.0
  minScore := params.minScore

/-- `c` is the class that the filled objects get. -/
def dbScanOfClass (libs : ClusterLibs R) (params : NvDsInferDetectionParams R) (c : ℕ)
    (objects : List (NvDsInferObjectDetectionInfo R)) : List (NvDsInferObjectDetectionInfo R) :=
  let objects := if params.minBoxes > 0 then libs.dbScanCluster (clusteringParams params) objects else objects
  let objects := objects.filter fun obj => !decide (obj.detectionConfidence < params.postClusterThreshold)
  (filterTopKOutputs id params.topK objects).map fun obj => { obj with classId := c }

def hybridOfClass (libs : ClusterLibs R) (params : NvDsInferDetectionParams R)
    (objects : List (NvDsInferObjectDetectionInfo R)) : List (NvDsInferObjectDetectionInfo R) :=
  if params.minBoxes > 0 then libs.dbScanClusterHybrid (clusteringParams params) objects else objects

def groupRectanglesOfClass (libs : ClusterLibs R) (params : NvDsInferDetectionParams R) (c : ℕ)
    (objects : List (NvDsInferObjectDetectionInfo R)) : List (NvDsInferObjectDetectionInfo R) :=
  let rects := if params.groupThreshold > 0 then libs.groupRectangles params.groupThreshold params.eps objects else objects
  rects.map fun rect => { rect with classId := c, detectionConfidence := -0.1 }

/-! ### Attributes -/

/-- The attribute of layer `l`: the first class of highest probability above the
threshold. -/
def attributeOfLayer (classifierThreshold : R) (l : ℕ) (layer : OutputLayer R) : Option (ℕ × ℕ × R) :=
  ((List.range (getDimsCHWFromDims layer.inferDims).c).foldl
    (fun (found, maxProbability) c =>
      let probability := layer.buffer c
      if probability > classifierThreshold ∧ probability > maxProbability then
        (some (l, c, probability), probability)
      else (found, maxProbability))
    (none, (0 : R))).1

/-- The attributes and the text of their labels. -/
def parseAttributesFromSoftmaxLayers (labels : List (List String)) (classifierThreshold : R)
    (outputLayersInfo : List (OutputLayer R)) : List (NvDsInferAttribute R String) × String :=
  let attrList := outputLayersInfo.zipIdx.filterMap fun (layer, l) =>
    (attributeOfLayer classifierThreshold l layer).map fun (index, value, confidence) =>
      ⟨index, value, confidence, labels[index]?.bind fun texts => texts[value]?⟩
  (attrList, attrList.foldl (fun attrString attr =>
    match attr.attributeLabel with
    | none => attrString
    | some label => attrString ++ label ++ " ") "")

end

end Infer
end DeepStream
