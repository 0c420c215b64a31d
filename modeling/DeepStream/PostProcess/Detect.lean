/-
# The detections of gst-nvdspostprocess

`DetectModelPostProcessor` repeats the post-processing of nvdsinfer's detectors with functions of
its own: it filters the candidate boxes of a frame, divides them by class, clusters each class and
fills an output that its caller has set to zero. The one difference is in the initialisation. Both
replace the clustering by OpenCV with NMS and set `topK` and the threshold for it, but
`DetectModelPostProcessor` has stored the mode by then, and no case of its switch is for it: the
output stays empty.

An access beyond a vector or an array is undefined. What the parser of boxes finds is given, and so are
the functions of DBSCAN.
-/
import DeepStream.PostProcess.Config
import DeepStream.Infer.ClusterModes

namespace DeepStream
namespace PostProcess

/-! ### Clustering -/

namespace Detect

/-- The fields are those of the structure of nvdsinfer, and the code casts one to the other. -/
abbrev ObjectDetectionInfo := Infer.NvDsInferObjectDetectionInfo ℚ

structure Object where
  left : ℚ
  top : ℚ
  width : ℚ
  height : ℚ
  classIndex : ℕ
  label : Option Text
  confidence : ℚ
  deriving DecidableEq, Repr

/-- `objects` is the array with what has been written into it. -/
structure DetectionOutput where
  objects : List (Option Object)
  numObjects : ℕ
  deriving DecidableEq, Repr

inductive Status where
  | success | outputParsingFailed
  deriving DecidableEq, Repr

def preClusteringThreshold (params : List DetectionParams) (objectList : List ObjectDetectionInfo) :
    List ObjectDetectionInfo :=
  objectList.filter fun obj =>
    match params[obj.classId]? with
    | none => false
    | some d => !decide (obj.detectionConfidence < d.preClusterThreshold)

def filterTopKOutputs (topK : ℤ) (objectList : List ObjectDetectionInfo) : List ObjectDetectionInfo :=
  if topK < 0 then objectList
  else
    let sorted := objectList.mergeSort fun obj1 obj2 => !decide (obj2.detectionConfidence > obj1.detectionConfidence)
    sorted.take (if topK.toNat ≤ sorted.length then topK.toNat else sorted.length)

def overlap1D (x1min x1max x2min x2max : ℚ) : ℚ :=
  let (x1max, x2min, x2max) := if x1min > x2min then (x2max, x1min, x1max) else (x1max, x2min, x2max)
  if x1max < x2min then 0 else min x1max x2max - x2min

def computeIoU (bbox1 bbox2 : ObjectDetectionInfo) : ℚ :=
  let overlapX := overlap1D bbox1.left (bbox1.left + bbox1.width) bbox2.left (bbox2.left + bbox2.width)
  let overlapY := overlap1D bbox1.top (bbox1.top + bbox1.height) bbox2.top (bbox2.top + bbox2.height)
  let area1 := bbox1.width * bbox1.height
  let area2 := bbox2.width * bbox2.height
  let overlap2D := overlapX * overlapY
  let u := area1 + area2 - overlap2D
  if u = 0 then 0 else overlap2D / u

/-- The inner loop of the suppression, over the positions that are kept. -/
def keeps (bbox : List ObjectDetectionInfo) (nmsThreshold : ℚ) (idx : ℕ) : List ℕ → Option Bool
  | [] => some true
  | kept :: indices => do
    let b ← bbox[idx]?
    let b' ← bbox[kept]?
    if computeIoU b b' ≤ nmsThreshold then keeps bbox nmsThreshold idx indices else some false

def nonMaximumSuppression (bbox : List ObjectDetectionInfo) (nmsThreshold : ℚ) :
    List (ℚ × ℕ) → List ℕ → Option (List ℕ)
  | [], indices => some indices
  | i :: scoreIndex, indices => do
    let keep ← keeps bbox nmsThreshold i.2 indices
    nonMaximumSuppression bbox nmsThreshold scoreIndex (if keep then indices ++ [i.2] else indices)

/-- The body of the loop of `clusterAndFillDetectionOutputNMS`. -/
def nmsClass (params : DetectionParams) (list : List ObjectDetectionInfo) : Option (List ObjectDetectionInfo) :=
  if list = [] then some []
  else do
    let scoreIndex := (list.zipIdx.map fun (obj, r) => (obj.detectionConfidence, r)).mergeSort
      fun pair1 pair2 => !decide (pair2.1 > pair1.1)
    let indices ← nonMaximumSuppression list params.nmsIOUThreshold scoreIndex []
    let found ← indices.mapM (list[·]?)
    some (filterTopKOutputs params.topK
      (found.filter fun obj => decide (obj.detectionConfidence > params.postClusterThreshold)))

def clusteringParams (params : DetectionParams) : Infer.NvDsInferDBScanClusteringParams ℚ where
  eps := params.eps
  minBoxes := params.minBoxes
  enableATHRFilter := true
  thresholdATHR := 60
  minScore := params.minScore

variable (libs : Infer.ClusterLibs ℚ)

/-- The body of the first loop of `clusterAndFillDetectionOutputDBSCAN`. -/
def dbscanClass (params : DetectionParams) (list : List ObjectDetectionInfo) : List ObjectDetectionInfo :=
  let list := if params.minBoxes > 0 then libs.dbScanCluster (clusteringParams params) list else list
  filterTopKOutputs params.topK
    (list.filter fun obj => !decide (obj.detectionConfidence < params.postClusterThreshold))

def hybridClass (params : DetectionParams) (list : List ObjectDetectionInfo) : List ObjectDetectionInfo :=
  if params.minBoxes > 0 then libs.dbScanClusterHybrid (clusteringParams params) list else list

/-! ### The output -/

def DetectionOutput.write (output : DetectionOutput) (object : Object) : Option DetectionOutput :=
  if output.numObjects < output.objects.length then
    some ⟨output.objects.set output.numObjects (some object), output.numObjects + 1⟩
  else none

variable (pp : ModelPostProcessor)

/-- An object of class `c` as it is written. -/
def objectOf (labels : List (List Text)) (c : ℕ) (obj : ObjectDetectionInfo) : Object where
  left := obj.left
  top := obj.top
  width := obj.width
  height := obj.height
  classIndex := c
  label := labels[c]?.bind (·[0]?)
  confidence := obj.detectionConfidence

/-- The loops that fill the array. -/
def fillObjects (labels : List (List Text)) : List (ℕ × ObjectDetectionInfo) → DetectionOutput → Option DetectionOutput
  | [], output => some output
  | (c, obj) :: objs, output => do
    let output ← output.write (objectOf labels c obj)
    fillObjects labels objs output

def newOutput (labels : List (List Text)) (totalObjects : ℕ) (objs : List (ℕ × ObjectDetectionInfo)) :
    Option DetectionOutput :=
  fillObjects labels objs ⟨List.replicate totalObjects none, 0⟩

/-- A loop over the classes, with the parameters and the list of each. -/
def forClasses {α : Type} (lists : List (List ObjectDetectionInfo))
    (f : ℕ → DetectionParams → List ObjectDetectionInfo → Option α) : Option (List α) :=
  (List.range pp.numDetectedClasses).mapM fun c => do
    let params ← pp.perClassDetectionParams[c]?
    let list ← lists[c]?
    f c params list

/-- The largest of the lists is copied first, also where there is none. -/
def clusterAndFillDetectionOutputNMS (lists : List (List ObjectDetectionInfo)) : Option DetectionOutput := do
  if lists = [] then none
  else
    let clustered ← forClasses pp lists fun _ params list => nmsClass params list
    newOutput pp.labels clustered.flatten.length (clustered.flatten.map fun obj => (obj.classId, obj))

def clusterAndFillDetectionOutputDBSCAN (lists : List (List ObjectDetectionInfo)) : Option DetectionOutput := do
  let lists ← forClasses pp lists fun _ params list => some (dbscanClass libs params list)
  let filled ← forClasses pp lists fun c _ list => some (list.map fun obj => (c, obj))
  newOutput pp.labels (lists.map List.length).sum filled.flatten

def clusterAndFillDetectionOutputHybrid (lists : List (List ObjectDetectionInfo)) : Option DetectionOutput := do
  let lists ← forClasses pp lists fun _ params list => some (hybridClass libs params list)
  clusterAndFillDetectionOutputNMS pp lists

/-- Each object is added to the list of its class. -/
def separate (objectList : List ObjectDetectionInfo) (lists : List (List ObjectDetectionInfo)) :
    List (List ObjectDetectionInfo) :=
  objectList.foldl (fun lists obj => lists.modify obj.classId (· ++ [obj])) lists

def fillUnclusteredOutput (objectList : List ObjectDetectionInfo) (lists : List (List ObjectDetectionInfo)) :
    Option DetectionOutput := do
  let lists ← forClasses pp (separate objectList lists) fun _ params list => some (filterTopKOutputs params.topK list)
  newOutput pp.labels (lists.map List.length).sum (lists.flatten.map fun obj => (obj.classId, obj))

/-- `parsed` is what the function that parses the boxes finds. -/
def fillDetectionOutput (parsed : Option (List ObjectDetectionInfo)) (output : DetectionOutput) :
    Option (Status × DetectionOutput) :=
  let lists := List.replicate pp.numDetectedClasses []
  match parsed with
  | none => some (.outputParsingFailed, output)
  | some objectList =>
    let objectList := preClusteringThreshold pp.perClassDetectionParams objectList
    let lists := if pp.clusterMode ≠ .noClustering then separate objectList lists else lists
    let filled := fun output => (Status.success, output)
    match pp.clusterMode with
    | .nms => (clusterAndFillDetectionOutputNMS pp lists).map filled
    | .dbscan => (clusterAndFillDetectionOutputDBSCAN libs pp lists).map filled
    | .dbscanNmsHybrid => (clusterAndFillDetectionOutputHybrid libs pp lists).map filled
    | .noClustering => (fillUnclusteredOutput pp objectList lists).map filled
    -- there is no case for this mode without OpenCV
    | .groupRectangles => some (.success, output)

/-- The objects that are read from an output. -/
def DetectionOutput.results (output : DetectionOutput) : List Object :=
  (output.objects.take output.numObjects).filterMap id

/-- What there is to compare for a frame. -/
inductive Detected where
  | notInitialized
  | undefined
  | objects (results : List Object)
  deriving DecidableEq, Repr

/-- The caller sets the output to zero. -/
def detects (env : Environment) (uniqueId : ℕ) (gpuId : ℤ) (p : InitParams) (objectList : List ObjectDetectionInfo) :
    Detected :=
  match initResource env uniqueId gpuId p with
  | .error _ => .notInitialized
  | .ok (pp, _) =>
    match fillDetectionOutput libs pp (some objectList) ⟨[], 0⟩ with
    | none => .undefined
    | some (_, output) => .objects output.results

end Detect

/-! ### The same in nvdsinfer -/

end PostProcess

namespace Infer

/-- The parameters that the initialisation of a detector reads. -/
structure NvDsInferContextInitParams where
  labelsFilePath : List Char
  networkType : NvDsInferNetworkType
  numDetectedClasses : ℕ
  perClassDetectionParams : Option (List (NvDsInferDetectionParams ℚ))
  clusterMode : NvDsInferClusterMode
  deriving DecidableEq, Repr

/-- What `initialize` does with the parameters; `numDetectedClasses` is the length of the array. -/
def replaceGroupRectangles (withOpenCV : Bool) (initParams : NvDsInferContextInitParams) : NvDsInferContextInitParams :=
  if withOpenCV = false ∧ initParams.clusterMode = .groupRectangles ∧ initParams.networkType = .detector then
    { initParams with
      clusterMode := .nms
      perClassDetectionParams := initParams.perClassDetectionParams.map fun params =>
        params.map fun d => { d with topK := 20, nmsIOUThreshold := 1 / 2 } }
  else initParams

variable (withOpenCV dbScanCreated : Bool) (readLabels : List Char → Option (List (List (List Char)))) (libs : ClusterLibs ℚ)

/-- `InferPostprocessor::initResource` reads the labels. -/
def labelsOf (initParams : NvDsInferContextInitParams) : Option (List (List String)) :=
  if initParams.labelsFilePath = [] then some []
  else (readLabels initParams.labelsFilePath).map fun labels => labels.map (·.map String.ofList)

/-- The labels and the post-processor; the function that parses boxes finds `objectList`. -/
def DetectPostprocessor.initResource (objectList : List (NvDsInferObjectDetectionInfo ℚ))
    (initParams : NvDsInferContextInitParams) : Option (List (List String) × DetectPostprocessor ℚ) := do
  let labels ← labelsOf readLabels initParams
  if 0 < initParams.numDetectedClasses ∧ initParams.perClassDetectionParams = none then none
  else if (initParams.clusterMode = .dbscan ∨ initParams.clusterMode = .dbscanNmsHybrid) ∧ dbScanCreated = false then none
  else some (labels,
    { customBBoxParseFunc := some fun _ _ _ => some objectList
      clusterMode := initParams.clusterMode
      perClassDetectionParams := (initParams.perClassDetectionParams.getD []).take initParams.numDetectedClasses
      withOpenCV := withOpenCV
      libs := libs })

/-- An object as it is read from an output. -/
def NvDsInferObject.seen (obj : NvDsInferObject ℚ) : PostProcess.Detect.Object where
  left := obj.left
  top := obj.top
  width := obj.width
  height := obj.height
  classIndex := obj.classIndex
  label := obj.label.map (·.text.toList)
  confidence := obj.confidence

def NvDsInferDetectionOutput.results (output : NvDsInferDetectionOutput ℚ) : List PostProcess.Detect.Object :=
  (output.objects.cells.take output.numObjects).filterMap fun cell => cell.map (·.seen)

/-- An output that is not written is undefined: its caller does not set it to zero. -/
def detects (initParams : NvDsInferContextInitParams) (objectList : List (NvDsInferObjectDetectionInfo ℚ)) :
    PostProcess.Detect.Detected :=
  let initParams := replaceGroupRectangles withOpenCV initParams
  match DetectPostprocessor.initResource withOpenCV dbScanCreated readLabels libs objectList initParams with
  | none => .notInitialized
  | some (labels, processor) =>
    match processor.fillDetectionOutput labels ⟨0, 0, 0⟩ [] Heap.empty with
    | some (_, some output, _) => .objects output.results
    | _ => .undefined

end Infer

namespace PostProcess

/-! ### The same parameters -/

def ClusterMode.toInfer : ClusterMode → Infer.NvDsInferClusterMode
  | .groupRectangles => .groupRectangles
  | .dbscan => .dbscan
  | .nms => .nms
  | .dbscanNmsHybrid => .dbscanNmsHybrid
  | .noClustering => .none

def NetworkType.toInfer : NetworkType → Infer.NvDsInferNetworkType
  | .detector => .detector
  | .classifier => .classifier
  | .segmentation => .segmentation
  | .instanceSegmentation => .instanceSegmentation
  | .other => .other

def DetectionParams.toInfer (d : DetectionParams) : Infer.NvDsInferDetectionParams ℚ where
  preClusterThreshold := d.preClusterThreshold
  postClusterThreshold := d.postClusterThreshold
  eps := d.eps
  minBoxes := d.minBoxes
  groupThreshold := d.groupThreshold
  minScore := d.minScore
  nmsIOUThreshold := d.nmsIOUThreshold
  topK := d.topK

def InitParams.toInfer (p : InitParams) : Infer.NvDsInferContextInitParams where
  labelsFilePath := p.labelsFilePath
  networkType := p.networkType.toInfer
  numDetectedClasses := p.numDetectedClasses
  perClassDetectionParams := p.perClassDetectionParams.map (·.map DetectionParams.toInfer)
  clusterMode := p.clusterMode.toInfer

namespace Detect

variable (libs : Infer.ClusterLibs ℚ) (env : Environment) (uniqueId : ℕ) (gpuId : ℤ)

/-- The parameters of a detector: its parser is there, and so is a set of parameters for each class. -/
structure IsDetector (p : InitParams) : Prop where
  networkType : p.networkType = .detector
  parser : p.customBBoxParseFuncName = [] ∨ p.customBBoxParseFuncName ∈ bboxParsers
  length : ∀ params ∈ p.perClassDetectionParams, params.length = p.numDetectedClasses

/-- Both detect the same. -/
def Meets (p : InitParams) (objectList : List ObjectDetectionInfo) : Prop :=
  detects libs env uniqueId gpuId p objectList =
    Infer.detects env.withOpencv env.dbscanCreated env.readLabels libs p.toInfer objectList

/-- What `initResource` asks for. -/
def Initializes (p : InitParams) : Prop :=
  (0 < p.numDetectedClasses → p.perClassDetectionParams ≠ none) ∧
    (p.clusterMode = .dbscan ∨ p.clusterMode = .dbscanNmsHybrid → env.dbscanCreated = true)

/-- No candidate that passes the threshold of its class before the clustering passes that after it. -/
def NoneAbove (p : InitParams) (objectList : List ObjectDetectionInfo) : Prop :=
  ∀ obj ∈ objectList, ∀ d ∈ (p.perClassDetectionParams.getD [])[obj.classId]?,
    d.preClusterThreshold ≤ obj.detectionConfidence → obj.detectionConfidence ≤ d.postClusterThreshold

def LabelsRead (p : InitParams) : Prop :=
  p.labelsFilePath = [] ∨ (env.readLabels p.labelsFilePath).isSome = true

/-- The labels can be read; and the mode is not the one of OpenCV, or there is nothing to detect. -/
def MeetsWhen (p : InitParams) (objectList : List ObjectDetectionInfo) : Prop :=
  Initializes env p → LabelsRead env p ∧
    (p.clusterMode = .groupRectangles → p.numDetectedClasses ≠ 0 ∧ NoneAbove p objectList)

end Detect

end PostProcess

end DeepStream
