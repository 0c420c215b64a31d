/-
# The configuration of gst-nvdspostprocess

`SetConfigFile` reads a YAML file under `m_processLock` and changes the fields of the
algorithm one key at a time; then it makes the parameters of the classes anew and
replaces the post-processor by one that is initialised with the new parameters.

An early return leaves the fields as they are at that point, and the lock taken. The
conversions of scalars are parameters, and so are the files of labels. Text is a list
of characters. Floats are only copied. Fields that are only written are left out:
the labels, network type, cluster mode and number of classes of the algorithm itself,
`m_detectorClassAttr`, and what `is-classifier`, `release-tensor-meta`,
`operate-on-class-ids` and `output-blob-names` set besides the initial parameters.
-/
import DeepStream.Lib.Folds
import Mathlib.Data.List.Dedup
import Mathlib.Tactic.NormNum

namespace DeepStream
namespace PostProcess

abbrev Text := List Char

/-! ### Parameters -/

inductive NetworkType where
  | detector | classifier | segmentation | instanceSegmentation | other
  deriving DecidableEq, Repr

/-- The numbers that `network-type` may have. -/
def NetworkType.ofInt (n : ℤ) : Option NetworkType :=
  if n = 0 then some .detector
  else if n = 1 then some .classifier
  else if n = 2 then some .segmentation
  else if n = 3 then some .instanceSegmentation
  else if n = 100 then some .other
  else none

inductive ClusterMode where
  | groupRectangles | dbscan | nms | dbscanNmsHybrid | noClustering
  deriving DecidableEq, Repr

def ClusterMode.ofInt (n : ℤ) : Option ClusterMode :=
  if n = 0 then some .groupRectangles
  else if n = 1 then some .dbscan
  else if n = 2 then some .nms
  else if n = 3 then some .dbscanNmsHybrid
  else if n = 4 then some .noClustering
  else none

structure ColorParams where
  red : ℚ
  green : ℚ
  blue : ℚ
  alpha : ℚ
  deriving DecidableEq, Repr

/-- The defaults are those of `SetConfigFile`. -/
structure DetectionParams where
  preClusterThreshold : ℚ := 1 / 5
  postClusterThreshold : ℚ := 0
  eps : ℚ := 0
  groupThreshold : ℤ := 0
  minBoxes : ℤ := 0
  minScore : ℚ := 0
  nmsIOUThreshold : ℚ := 3 / 10
  topK : ℤ := -1
  roiTopOffset : ℕ := 0
  roiBottomOffset : ℕ := 0
  detectionMinWidth : ℕ := 0
  detectionMinHeight : ℕ := 0
  detectionMaxWidth : ℕ := 0
  detectionMaxHeight : ℕ := 0
  haveBorderColor : Bool := true
  borderColor : ColorParams := ⟨1, 0, 0, 1⟩
  haveBgColor : Bool := false
  bgColor : ColorParams := ⟨1, 0, 0, 1⟩
  deriving DecidableEq, Repr

structure InitParams where
  uniqueID : ℕ := 0
  labelsFilePath : Text := []
  networkType : NetworkType := .other
  numDetectedClasses : ℕ := 0
  perClassDetectionParams : Option (List DetectionParams) := none
  classifierThreshold : ℚ := 1 / 2
  segmentationThreshold : ℚ := 1 / 2
  outputLayerNames : List Text := []
  gpuID : ℕ := 0
  clusterMode : ClusterMode := .nms
  customBBoxInstanceMaskParseFuncName : Text := []
  customBBoxParseFuncName : Text := []
  customClassifierParseFuncName : Text := []
  segmentationOutputOrder : ℤ := 0
  classifierType : Option Text := none
  deriving DecidableEq, Repr

/-- What a post-processor keeps of the parameters that it is initialised with. -/
structure ModelPostProcessor where
  networkType : NetworkType
  uniqueId : ℕ
  gpuId : ℤ
  labels : List (List Text)
  clusterMode : ClusterMode
  numDetectedClasses : ℕ
  perClassDetectionParams : List DetectionParams
  parseFuncName : Text
  classifierThreshold : ℚ
  classifierType : Text
  segmentationThreshold : ℚ
  segmentationOutputOrder : ℤ
  deriving DecidableEq, Repr

/-- The fields of `PostProcessAlgorithm` that the output thread or the post-processor read. -/
structure Algorithm where
  gpuId : ℤ := 0
  processMode : ℤ := 1
  gieUniqueId : ℕ := 0
  outputInstanceMask : ℤ := 0
  segmentationThreshold : ℚ := 0
  filterOutClassIds : List ℤ := []
  initParams : InitParams := {}
  postprocessor : Option ModelPostProcessor := none
  deriving DecidableEq, Repr

/-! ### Files -/

inductive PropertyKey where
  | gpuId | networkType | processMode | numDetectedClasses | gieUniqueId | labelfilePath | clusterMode
  | releaseTensorMeta | outputInstanceMask | isClassifier | classifierThreshold | classifierType
  | segmentationThreshold | segmentationOutputOrder | parseClassifierFuncName | parseBboxFuncName
  | parseBboxInstanceMaskFuncName | outputBlobNames | operateOnClassIds | filterOutClassIds
  | unknown (key : Text)
  deriving DecidableEq, Repr

inductive AttrKey where
  | detectedMinW | detectedMinH | detectedMaxW | detectedMaxH | minBoxes | preClusterThreshold
  | postClusterThreshold | eps | groupThreshold | minScore | dbscanMinScore | nmsIouThreshold | topk
  | roiTopOffset | roiBottomOffset | borderColor | bgColor
  | unknown (key : Text)
  deriving DecidableEq, Repr

/-- The groups of a file: `property`, `class-attrs-all`, and `class-attrs-` with another suffix. -/
inductive Group where
  | property (entries : List (PropertyKey × Text))
  | classAttrsAll (entries : List (AttrKey × Text))
  | classAttrs (suffix : Text) (entries : List (AttrKey × Text))
  | other
  deriving DecidableEq, Repr

/-- A file that does not exist, one that `YAML::LoadFile` throws at, or one with groups. -/
inductive ConfigFile where
  | missing
  | malformed
  | document (groups : List Group)
  deriving DecidableEq, Repr

/-- The conversions of scalars, which throw when there is no result, and what lies outside. -/
structure Environment where
  asInt : Text → Option ℤ
  asFloat : Text → Option ℚ
  stoi : Text → Option ℤ
  stod : Text → Option ℚ
  /-- The rows of a labels file that can be read. -/
  readLabels : Text → Option (List (List Text))
  withOpencv : Bool
  dbscanCreated : Bool

variable (env : Environment)

/-- Of the first group with the key. -/
def propertyEntries : List Group → Option (List (PropertyKey × Text))
  | [] => none
  | .property entries :: _ => some entries
  | _ :: groups => propertyEntries groups

def classAttrsAllEntries : List Group → Option (List (AttrKey × Text))
  | [] => none
  | .classAttrsAll entries :: _ => some entries
  | _ :: groups => classAttrsAllEntries groups

def classAttrsEntries (suffix : Text) : List Group → List (AttrKey × Text)
  | [] => []
  | .classAttrs suffix' entries :: groups => if suffix' = suffix then entries else classAttrsEntries suffix groups
  | _ :: groups => classAttrsEntries suffix groups

/-- `SplitString`: the parts between semicolons, without an empty part at the end. -/
def splitString (text : Text) : List Text :=
  let parts := text.splitOn ';'
  if parts.getLast? = some [] then parts.dropLast else parts

/-- An `int` as an `unsigned int`. -/
def toUnsigned (n : ℤ) : ℕ := (n % 2 ^ 32).toNat

/-! ### Reading the file -/

/-- How `SetConfigFile` leaves early: it returns false, or it crashes, with an exception
that nobody catches or outside the bounds of an array. -/
inductive Exit where
  | returnFalse
  | crash
  deriving DecidableEq, Repr

def readInt {σ : Type} (s : σ) (v : Text) (set : ℤ → σ) : Except (Exit × σ) σ :=
  (env.asInt v).elim (.error (.crash, s)) fun n => .ok (set n)

def readFloat {σ : Type} (s : σ) (v : Text) (set : ℚ → σ) : Except (Exit × σ) σ :=
  (env.asFloat v).elim (.error (.crash, s)) fun x => .ok (set x)

/-- A number that stands for a value of an enumeration. -/
def readEnum {σ β : Type} (ofInt : ℤ → Option β) (s : σ) (v : Text) (set : β → σ) : Except (Exit × σ) σ :=
  (env.asInt v).elim (.error (.crash, s)) fun n => (ofInt n).elim (.error (.returnFalse, s)) fun b => .ok (set b)

/-- `SplitStringInt`, as a set: in order and once each. -/
def readClassIds {σ : Type} (s : σ) (v : Text) (set : List ℤ → σ) : Except (Exit × σ) σ :=
  ((splitString v).mapM env.stoi).elim (.error (.crash, s)) fun ids => .ok (set ids.dedup)

def Algorithm.setInit (a : Algorithm) (p : InitParams) : Algorithm := { a with initParams := p }

/-- A key of the group `property`. -/
def property (a : Algorithm) : PropertyKey × Text → Except (Exit × Algorithm) Algorithm
  | (.gpuId, v) => readInt env a v fun n => { a with gpuId := n, initParams := { a.initParams with gpuID := toUnsigned n } }
  | (.networkType, v) => readEnum env NetworkType.ofInt a v fun t => a.setInit { a.initParams with networkType := t }
  | (.processMode, v) => readInt env a v fun n => { a with processMode := n }
  | (.numDetectedClasses, v) =>
    readInt env a v fun n => a.setInit { a.initParams with numDetectedClasses := toUnsigned n }
  | (.gieUniqueId, v) => readInt env a v fun n =>
    { a with gieUniqueId := toUnsigned n, initParams := { a.initParams with uniqueID := toUnsigned n } }
  | (.labelfilePath, v) =>
    (env.readLabels v).elim (.error (.returnFalse, a)) fun _ =>
      .ok (a.setInit { a.initParams with labelsFilePath := v.take 4095 })
  | (.clusterMode, v) => readEnum env ClusterMode.ofInt a v fun m => a.setInit { a.initParams with clusterMode := m }
  | (.releaseTensorMeta, v) => readInt env a v fun _ => a
  | (.outputInstanceMask, v) => readInt env a v fun n => { a with outputInstanceMask := n }
  | (.isClassifier, v) => readInt env a v fun _ => a
  | (.classifierThreshold, v) => readFloat env a v fun x => a.setInit { a.initParams with classifierThreshold := x }
  | (.classifierType, v) => .ok (a.setInit { a.initParams with classifierType := some v })
  | (.segmentationThreshold, v) => readFloat env a v fun x =>
    { a with segmentationThreshold := x, initParams := { a.initParams with segmentationThreshold := x } }
  | (.segmentationOutputOrder, v) =>
    readInt env a v fun n => a.setInit { a.initParams with segmentationOutputOrder := n }
  | (.parseClassifierFuncName, v) => .ok (a.setInit { a.initParams with customClassifierParseFuncName := v.take 1023 })
  | (.parseBboxFuncName, v) => .ok (a.setInit { a.initParams with customBBoxParseFuncName := v.take 1023 })
  | (.parseBboxInstanceMaskFuncName, v) =>
    .ok (a.setInit { a.initParams with customBBoxInstanceMaskParseFuncName := v.take 1023 })
  | (.outputBlobNames, v) =>
    .ok (a.setInit { a.initParams with outputLayerNames := (splitString v).map (List.take 63) })
  | (.operateOnClassIds, v) => readClassIds env a v fun _ => a
  | (.filterOutClassIds, v) => readClassIds env a v fun ids => { a with filterOutClassIds := ids }
  | (.unknown _, _) => .ok a

/-- The four components of a colour. -/
def readColor (p : DetectionParams) (v : Text) (set : ColorParams → DetectionParams) :
    Except (Exit × DetectionParams) DetectionParams :=
  match splitString v with
  | [r, g, b, a] =>
    match env.stod r, env.stod g, env.stod b, env.stod a with
    | some r, some g, some b, some a => .ok (set ⟨r, g, b, a⟩)
    | _, _, _, _ => .error (.crash, p)
  | _ => .error (.returnFalse, p)

/-- A key of `ParseConfAttr`. -/
def confAttr (p : DetectionParams) : AttrKey × Text → Except (Exit × DetectionParams) DetectionParams
  | (.detectedMinW, v) => readInt env p v fun n => { p with detectionMinWidth := toUnsigned n }
  | (.detectedMinH, v) => readInt env p v fun n => { p with detectionMinHeight := toUnsigned n }
  | (.detectedMaxW, v) => readInt env p v fun n => { p with detectionMaxWidth := toUnsigned n }
  | (.detectedMaxH, v) => readInt env p v fun n => { p with detectionMaxHeight := toUnsigned n }
  | (.minBoxes, v) => readInt env p v fun n => { p with minBoxes := n }
  | (.preClusterThreshold, v) => readFloat env p v fun x => { p with preClusterThreshold := x }
  | (.postClusterThreshold, v) => readFloat env p v fun x => { p with postClusterThreshold := x }
  | (.eps, v) => readFloat env p v fun x => { p with eps := x }
  | (.groupThreshold, v) => readInt env p v fun n => { p with groupThreshold := n }
  | (.minScore, v) => readFloat env p v fun x => { p with minScore := x }
  | (.dbscanMinScore, v) => readFloat env p v fun x => { p with minScore := x }
  | (.nmsIouThreshold, v) => readFloat env p v fun x => { p with nmsIOUThreshold := x }
  | (.topk, v) => readInt env p v fun n => { p with topK := n }
  | (.roiTopOffset, v) => readInt env p v fun n => { p with roiTopOffset := toUnsigned n }
  | (.roiBottomOffset, v) => readInt env p v fun n => { p with roiBottomOffset := toUnsigned n }
  | (.borderColor, v) => readColor env p v fun c => { p with borderColor := c }
  | (.bgColor, v) => readColor env p v fun c => { p with bgColor := c, haveBgColor := true }
  | (.unknown _, _) => .ok p

def parseConfAttr (p : DetectionParams) (entries : List (AttrKey × Text)) : Except (Exit × DetectionParams) DetectionParams :=
  entries.foldlM (confAttr env) p

/-- A field of the classes' parameters has a new value. -/
def Algorithm.withClasses (a : Algorithm) (params : List DetectionParams) : Algorithm :=
  a.setInit { a.initParams with perClassDetectionParams := some params }

/-- A group `class-attrs-` with a number: the parameters of one class. -/
def classGroup (groups : List Group) (all : DetectionParams) (a : Algorithm) : Group → Except (Exit × Algorithm) Algorithm
  | .classAttrs suffix _ =>
    match env.stoi suffix with
    | none => .error (.crash, a)
    | some classIndex =>
      let params := a.initParams.perClassDetectionParams.getD []
      if 0 ≤ classIndex ∧ classIndex < params.length then
        match parseConfAttr env all (classAttrsEntries suffix groups) with
        | .ok p => .ok (a.withClasses (params.set classIndex.toNat p))
        | .error (e, p) => .error (e, a.withClasses (params.set classIndex.toNat p))
      else .error (.crash, a)
  | _ => .ok a

/-- The parameters of all classes. -/
def classParams (a : Algorithm) (groups : List Group) : Except (Exit × Algorithm) Algorithm :=
  match parseConfAttr env {} ((classAttrsAllEntries groups).getD []) with
  | .error (e, _) => .error (e, a)
  | .ok all =>
    groups.foldlM (classGroup env groups all) (a.withClasses (List.replicate a.initParams.numDetectedClasses all))

/-! ### The post-processor -/

def bboxParsers : List Text :=
  ["NvDsPostProcessParseCustomResnet", "NvDsPostProcessParseCustomTfSSD", "NvDsPostProcessParseCustomNMSTLT",
    "NvDsPostProcessParseCustomBatchedNMSTLT", "NvDsPostProcessParseCustomFasterRCNN",
    "NvDsPostProcessParseCustomSSD", "NvDsPostProcessParseCustomYoloV3", "NvDsPostProcessParseCustomYoloV3Tiny",
    "NvDsPostProcessParseCustomYoloV2", "NvDsPostProcessParseCustomYoloV2Tiny"].map String.toList

/-- The first name ends with a blank. -/
def instanceMaskParsers : List Text :=
  ["NvDsPostProcessParseCustomMrcnnTLT ", "NvDsInferParseCustomMrcnnTLTV2"].map String.toList

/-- With a blank at the end. -/
def classifierParsers : List Text := ["NvDsPostProcessClassiferParseCustomSoftmax "].map String.toList

/-- What every post-processor starts with; labels that cannot be read are none. -/
def newPostProcessor (uniqueId : ℕ) (gpuId : ℤ) (p : InitParams) (parseFuncName : Text) : ModelPostProcessor where
  networkType := p.networkType
  uniqueId := uniqueId
  gpuId := gpuId
  labels := if p.labelsFilePath = [] then [] else (env.readLabels p.labelsFilePath).getD []
  clusterMode := p.clusterMode
  numDetectedClasses := p.numDetectedClasses
  perClassDetectionParams := (p.perClassDetectionParams.getD []).take p.numDetectedClasses
  parseFuncName := parseFuncName
  classifierThreshold := p.classifierThreshold
  classifierType := p.classifierType.getD []
  segmentationThreshold := p.segmentationThreshold
  segmentationOutputOrder := p.segmentationOutputOrder

/-- Without OpenCV rectangles are clustered by NMS; the post-processor itself keeps the mode. -/
def replaceGroupRectangles (p : InitParams) : InitParams :=
  if env.withOpencv = false ∧ p.clusterMode = .groupRectangles then
    { p with
      clusterMode := .nms
      perClassDetectionParams := p.perClassDetectionParams.map fun params =>
        params.map fun d => { d with topK := 20, nmsIOUThreshold := 1 / 2 } }
  else p

/-- `initResource` of the post-processor for the network type; it may change the parameters. -/
def initResource (uniqueId : ℕ) (gpuId : ℤ) (p : InitParams) :
    Except (Exit × InitParams) (ModelPostProcessor × InitParams) :=
  match p.networkType with
  | .detector =>
    if 0 < p.numDetectedClasses ∧ p.perClassDetectionParams = none then .error (.returnFalse, p)
    else if p.customBBoxParseFuncName ≠ [] ∧ p.customBBoxParseFuncName ∉ bboxParsers then .error (.returnFalse, p)
    else if (p.clusterMode = .dbscan ∨ p.clusterMode = .dbscanNmsHybrid) ∧ env.dbscanCreated = false then
      .error (.returnFalse, replaceGroupRectangles env p)
    else .ok ({ newPostProcessor env uniqueId gpuId (replaceGroupRectangles env p) p.customBBoxParseFuncName with
                clusterMode := p.clusterMode }, replaceGroupRectangles env p)
  | .classifier =>
    if p.classifierType = none then .error (.crash, p)
    else if p.customClassifierParseFuncName ≠ [] ∧ p.customClassifierParseFuncName ∉ classifierParsers then
      .error (.returnFalse, p)
    else .ok (newPostProcessor env uniqueId gpuId p p.customClassifierParseFuncName, p)
  | .segmentation => .ok (newPostProcessor env uniqueId gpuId p [], p)
  | .instanceSegmentation =>
    if p.clusterMode ≠ .noClustering then .error (.returnFalse, p)
    else if 0 < p.numDetectedClasses ∧ p.perClassDetectionParams = none then .error (.returnFalse, p)
    else if p.customBBoxInstanceMaskParseFuncName ∉ instanceMaskParsers then .error (.returnFalse, p)
    else .ok (newPostProcessor env uniqueId gpuId p p.customBBoxInstanceMaskParseFuncName, p)
  | .other => .error (.returnFalse, p)

def preparePostProcess (a : Algorithm) : Except (Exit × Algorithm) Algorithm :=
  match initResource env a.gieUniqueId a.gpuId a.initParams with
  | .ok (pp, p) => .ok { a with initParams := p, postprocessor := some pp }
  | .error (e, p) => .error (e, { a with initParams := p, postprocessor := none })

/-! ### `SetConfigFile` -/

/-- The networks with classes that have parameters of their own. -/
def NetworkType.Detects (t : NetworkType) : Prop := t = .detector ∨ t = .instanceSegmentation

instance (t : NetworkType) : Decidable t.Detects := inferInstanceAs (Decidable (_ ∨ _))

/-- The part of `SetConfigFile` under the lock, with a group `property`. -/
def configure (a : Algorithm) (groups : List Group) (entries : List (PropertyKey × Text)) :
    Except (Exit × Algorithm) Algorithm :=
  match entries.foldlM (property env) a with
  | .error e => .error e
  | .ok a =>
    if a.initParams.networkType.Detects then
      match classParams env a groups with
      | .error e => .error e
      | .ok a => preparePostProcess env a
    else if a.initParams.networkType = .other then .error (.returnFalse, a)
    else preparePostProcess env a

/-- How a call ends: what it returns, and whether it leaves the lock free. -/
inductive Outcome where
  | returned (result : Bool) (unlocked : Bool)
  | crashed
  deriving DecidableEq, Repr

def setConfigFile (a : Algorithm) : ConfigFile → Outcome × Algorithm
  | .missing => (.returned false true, a)
  | .malformed => (.crashed, a)
  | .document groups =>
    match propertyEntries groups with
    -- without any group the lock is not even taken
    | none => (.returned false true, a)
    | some entries =>
      match configure env a groups entries with
      | .ok a' => (.returned true true, a')
      | .error (.returnFalse, a') => (.returned false false, a')
      | .error (.crash, a') => (.crashed, a')

/-! ### Files that are accepted -/

def PropertyKey.Valid (v : Text) : PropertyKey → Prop
  | .gpuId | .processMode | .numDetectedClasses | .gieUniqueId | .releaseTensorMeta | .outputInstanceMask
  | .isClassifier | .segmentationOutputOrder => (env.asInt v).isSome
  | .classifierThreshold | .segmentationThreshold => (env.asFloat v).isSome
  | .networkType => ((env.asInt v).bind NetworkType.ofInt).isSome
  | .clusterMode => ((env.asInt v).bind ClusterMode.ofInt).isSome
  | .labelfilePath => (env.readLabels v).isSome
  | .operateOnClassIds | .filterOutClassIds => ∀ part ∈ splitString v, (env.stoi part).isSome
  | .classifierType | .parseClassifierFuncName | .parseBboxFuncName | .parseBboxInstanceMaskFuncName
  | .outputBlobNames | .unknown _ => True

def AttrKey.Valid (v : Text) : AttrKey → Prop
  | .detectedMinW | .detectedMinH | .detectedMaxW | .detectedMaxH | .minBoxes | .groupThreshold | .topk
  | .roiTopOffset | .roiBottomOffset => (env.asInt v).isSome
  | .preClusterThreshold | .postClusterThreshold | .eps | .minScore | .dbscanMinScore | .nmsIouThreshold =>
    (env.asFloat v).isSome
  | .borderColor | .bgColor => (splitString v).length = 4 ∧ ∀ part ∈ splitString v, (env.stod part).isSome
  | .unknown _ => True

/-- What valid entries set. -/
def applyEntries (a : Algorithm) (entries : List (PropertyKey × Text)) : Algorithm :=
  entries.foldl (fun a e => (property env a e).toOption.getD a) a

/-- The groups of the classes: their numbers are those of classes. -/
structure ClassGroupsValid (groups : List Group) (numDetectedClasses : ℕ) : Prop where
  all : ∀ e ∈ (classAttrsAllEntries groups).getD [], e.1.Valid env e.2
  index : ∀ suffix entries, Group.classAttrs suffix entries ∈ groups →
    ∃ n, env.stoi suffix = some n ∧ 0 ≤ n ∧ n < numDetectedClasses
  entries : ∀ suffix entries, Group.classAttrs suffix entries ∈ groups →
    ∀ e ∈ classAttrsEntries suffix groups, e.1.Valid env e.2

/-- The post-processor for the network type knows its parse function and has what it needs. -/
def ResourceValid (p : InitParams) : Prop :=
  match p.networkType with
  | .detector => (p.customBBoxParseFuncName = [] ∨ p.customBBoxParseFuncName ∈ bboxParsers) ∧
      (p.clusterMode = .dbscan ∨ p.clusterMode = .dbscanNmsHybrid → env.dbscanCreated = true)
  | .classifier => p.classifierType ≠ none ∧
      (p.customClassifierParseFuncName = [] ∨ p.customClassifierParseFuncName ∈ classifierParsers)
  | .segmentation => True
  | .instanceSegmentation => p.clusterMode = .noClustering ∧ p.customBBoxInstanceMaskParseFuncName ∈ instanceMaskParsers
  | .other => False

/-- A valid file. -/
structure Accepted (a : Algorithm) (groups : List Group) (entries : List (PropertyKey × Text)) : Prop where
  found : propertyEntries groups = some entries
  properties : ∀ e ∈ entries, e.1.Valid env e.2
  classes : (applyEntries env a entries).initParams.networkType.Detects →
    ClassGroupsValid env groups (applyEntries env a entries).initParams.numDetectedClasses
  resource : ResourceValid env (applyEntries env a entries).initParams

/-- A file at which nothing is changed. -/
def ConfigFile.Rejected : ConfigFile → Prop
  | .missing => True
  | .malformed => False
  | .document groups => propertyEntries groups = none

/-- The parts of a configuration belong together: the post-processor was initialised
with the parameters that are in place, and a detector's classes all have parameters. -/
structure Algorithm.Coherent (a : Algorithm) : Prop where
  built : ∀ pp ∈ a.postprocessor, ∃ p, initResource env a.gieUniqueId a.gpuId p = .ok (pp, a.initParams)
  classes : ∀ pp ∈ a.postprocessor, pp.networkType.Detects →
    pp.numDetectedClasses ≤ (a.initParams.perClassDetectionParams.getD []).length

/-! ### A valid file is accepted -/

variable {env} {a : Algorithm} {groups : List Group} {entries : List (PropertyKey × Text)}

theorem foldlM_isOk {σ ε α : Type} {f : σ → α → Except ε σ} {l : List α} (h : ∀ e ∈ l, ∀ s, ∃ s', f s e = .ok s') (s : σ) :
    l.foldlM f s = .ok (l.foldl (fun s e => (f s e).toOption.getD s) s) := by
  induction l generalizing s with
  | nil => rfl
  | cons e l ih =>
    obtain ⟨s', hs'⟩ := h e List.mem_cons_self s
    rw [List.foldlM_cons, List.foldl_cons, hs']
    exact ih (fun e' he' => h e' (List.mem_cons_of_mem _ he')) s'

section Read

variable {σ : Type} {s : σ} {v : Text}

theorem readInt_ok {set : ℤ → σ} (h : (env.asInt v).isSome) : ∃ s', readInt env s v set = .ok s' := by
  obtain ⟨n, hn⟩ := Option.isSome_iff_exists.mp h
  exact ⟨set n, by rw [readInt, hn]; rfl⟩

theorem readFloat_ok {set : ℚ → σ} (h : (env.asFloat v).isSome) : ∃ s', readFloat env s v set = .ok s' := by
  obtain ⟨x, hx⟩ := Option.isSome_iff_exists.mp h
  exact ⟨set x, by rw [readFloat, hx]; rfl⟩

theorem readEnum_ok {β : Type} {ofInt : ℤ → Option β} {set : β → σ} (h : ((env.asInt v).bind ofInt).isSome) :
    ∃ s', readEnum env ofInt s v set = .ok s' := by
  obtain ⟨b, hb⟩ := Option.isSome_iff_exists.mp h
  obtain ⟨n, hn, hb⟩ := Option.bind_eq_some_iff.mp hb
  exact ⟨set b, by rw [readEnum, hn, Option.elim, hb]; rfl⟩

theorem readClassIds_ok {set : List ℤ → σ} (h : ∀ part ∈ splitString v, (env.stoi part).isSome) :
    ∃ s', readClassIds env s v set = .ok s' := by
  obtain ⟨ids, hids⟩ := Option.isSome_iff_exists.mp (isSome_mapM_iff.mpr h)
  exact ⟨set ids.dedup, by rw [readClassIds, hids]; rfl⟩

end Read

theorem property_ok (e : PropertyKey × Text) (h : e.1.Valid env e.2) (a : Algorithm) :
    ∃ a', property env a e = .ok a' := by
  obtain ⟨key, v⟩ := e
  cases key with
  | gpuId | processMode | numDetectedClasses | gieUniqueId | releaseTensorMeta | outputInstanceMask | isClassifier
  | segmentationOutputOrder => exact readInt_ok h
  | classifierThreshold | segmentationThreshold => exact readFloat_ok h
  | networkType | clusterMode => exact readEnum_ok h
  | operateOnClassIds | filterOutClassIds =>
    simp only [property]
    exact readClassIds_ok h
  | labelfilePath =>
    obtain ⟨rows, hrows⟩ := Option.isSome_iff_exists.mp h
    exact ⟨_, by rw [property, hrows]; rfl⟩
  | classifierType | parseClassifierFuncName | parseBboxFuncName | parseBboxInstanceMaskFuncName | outputBlobNames
  | unknown _ => exact ⟨_, rfl⟩

theorem readColor_ok {p : DetectionParams} {v : Text} {set : ColorParams → DetectionParams}
    (h : (splitString v).length = 4 ∧ ∀ part ∈ splitString v, (env.stod part).isSome) :
    ∃ p', readColor env p v set = .ok p' := by
  obtain ⟨hlen, hall⟩ := h
  unfold readColor
  rcases hsplit : splitString v with _ | ⟨r, _ | ⟨g, _ | ⟨b, _ | ⟨a, _ | ⟨_, _⟩⟩⟩⟩⟩
  all_goals rw [hsplit] at hlen hall
  · cases hlen
  · cases hlen
  · cases hlen
  · cases hlen
  · obtain ⟨r', hr⟩ := Option.isSome_iff_exists.mp (hall r (by simp))
    obtain ⟨g', hg⟩ := Option.isSome_iff_exists.mp (hall g (by simp))
    obtain ⟨b', hb⟩ := Option.isSome_iff_exists.mp (hall b (by simp))
    obtain ⟨a', ha⟩ := Option.isSome_iff_exists.mp (hall a (by simp))
    exact ⟨set ⟨r', g', b', a'⟩, by simp only [hr, hg, hb, ha]⟩
  · simp at hlen

theorem confAttr_ok (e : AttrKey × Text) (h : e.1.Valid env e.2) (p : DetectionParams) :
    ∃ p', confAttr env p e = .ok p' := by
  obtain ⟨key, v⟩ := e
  cases key with
  | detectedMinW | detectedMinH | detectedMaxW | detectedMaxH | minBoxes | groupThreshold | topk | roiTopOffset
  | roiBottomOffset => exact readInt_ok h
  | preClusterThreshold | postClusterThreshold | eps | minScore | dbscanMinScore | nmsIouThreshold => exact readFloat_ok h
  | borderColor | bgColor =>
    simp only [confAttr]
    exact readColor_ok h
  | unknown _ => exact ⟨_, rfl⟩

theorem parseConfAttr_ok {entries : List (AttrKey × Text)} (h : ∀ e ∈ entries, e.1.Valid env e.2) (p : DetectionParams) :
    ∃ p', parseConfAttr env p entries = .ok p' :=
  ⟨_, foldlM_isOk (fun e he => confAttr_ok e (h e he)) p⟩

theorem properties_ok (h : ∀ e ∈ entries, e.1.Valid env e.2) (a : Algorithm) :
    entries.foldlM (property env) a = .ok (applyEntries env a entries) :=
  foldlM_isOk (fun e he => property_ok e (h e he)) a

/-- The group of a class changes the parameters of the class. -/
theorem classGroup_ok (a : Algorithm) (groups : List Group) (all : DetectionParams) (g : Group)
    (params : List DetectionParams)
    (hindex : ∀ suffix entries, g = .classAttrs suffix entries → ∃ n, env.stoi suffix = some n ∧ 0 ≤ n ∧ n < params.length)
    (hentries : ∀ suffix entries, g = .classAttrs suffix entries →
      ∀ e ∈ classAttrsEntries suffix groups, e.1.Valid env e.2) :
    ∃ params' : List DetectionParams, params'.length = params.length ∧
      classGroup env groups all (a.withClasses params) g = .ok (a.withClasses params') := by
  rcases g with _ | _ | ⟨suffix, entries⟩ | _
  · exact ⟨params, rfl, rfl⟩
  · exact ⟨params, rfl, rfl⟩
  · obtain ⟨n, hn, hpos, hlt⟩ := hindex suffix entries rfl
    obtain ⟨p, hp⟩ := parseConfAttr_ok (hentries suffix entries rfl) all
    have hin : 0 ≤ n ∧ n < ((a.withClasses params).initParams.perClassDetectionParams.getD []).length := ⟨hpos, hlt⟩
    refine ⟨params.set n.toNat p, List.length_set, ?_⟩
    rw [classGroup, hn]
    dsimp only
    rw [if_pos hin, hp]
    rfl
  · exact ⟨params, rfl, rfl⟩

theorem classGroups_ok (a : Algorithm) (groups : List Group) (all : DetectionParams) : ∀ (gs : List Group) (params : List DetectionParams),
    (∀ suffix entries, Group.classAttrs suffix entries ∈ gs →
      ∃ n, env.stoi suffix = some n ∧ 0 ≤ n ∧ n < params.length) →
    (∀ suffix entries, Group.classAttrs suffix entries ∈ gs →
      ∀ e ∈ classAttrsEntries suffix groups, e.1.Valid env e.2) →
    ∃ params' : List DetectionParams, params'.length = params.length ∧
      gs.foldlM (classGroup env groups all) (a.withClasses params) = .ok (a.withClasses params')
  | [], params, _, _ => ⟨params, rfl, rfl⟩
  | g :: gs, params, hindex, hentries => by
    obtain ⟨params₁, hlen₁, hg⟩ := classGroup_ok a groups all g params
      (fun suffix entries h => hindex suffix entries (h ▸ List.mem_cons_self))
      (fun suffix entries h => hentries suffix entries (h ▸ List.mem_cons_self))
    obtain ⟨params₂, hlen₂, hgs⟩ := classGroups_ok a groups all gs params₁
      (fun suffix entries h => by
        rw [hlen₁]
        exact hindex suffix entries (List.mem_cons_of_mem _ h))
      (fun suffix entries h => hentries suffix entries (List.mem_cons_of_mem _ h))
    refine ⟨params₂, hlen₂.trans hlen₁, ?_⟩
    rw [List.foldlM_cons, hg]
    exact hgs

theorem classParams_ok (h : ClassGroupsValid env groups a.initParams.numDetectedClasses) :
    ∃ params : List DetectionParams, params.length = a.initParams.numDetectedClasses ∧
      classParams env a groups = .ok (a.withClasses params) := by
  obtain ⟨all, hall⟩ := parseConfAttr_ok h.all {}
  have hlen : (List.replicate a.initParams.numDetectedClasses all).length = a.initParams.numDetectedClasses :=
    List.length_replicate
  obtain ⟨params, hparams, hgs⟩ := classGroups_ok a groups all groups
    (List.replicate a.initParams.numDetectedClasses all)
    (fun suffix entries hg => by
      rw [hlen]
      exact h.index suffix entries hg)
    h.entries
  refine ⟨params, hparams.trans hlen, ?_⟩
  rw [classParams, hall]
  exact hgs

theorem numDetectedClasses_replaceGroupRectangles (p : InitParams) :
    (replaceGroupRectangles env p).numDetectedClasses = p.numDetectedClasses := by
  unfold replaceGroupRectangles
  split
  · rfl
  · rfl

theorem length_replaceGroupRectangles (p : InitParams) :
    ((replaceGroupRectangles env p).perClassDetectionParams.getD []).length =
      (p.perClassDetectionParams.getD []).length := by
  unfold replaceGroupRectangles
  split
  · rcases hparams : p.perClassDetectionParams with _ | params
    · rfl
    · exact List.length_map _
  · rfl

/-- A post-processor is initialised; a detector has the parameters of its classes. -/
theorem initResource_ok {p : InitParams} (h : ResourceValid env p)
    (hclasses : p.networkType.Detects → ∃ params : List DetectionParams, p.perClassDetectionParams = some params ∧
      params.length = p.numDetectedClasses) (uniqueId : ℕ) (gpuId : ℤ) :
    ∃ pp p', initResource env uniqueId gpuId p = .ok (pp, p') ∧
      (pp.networkType.Detects → pp.numDetectedClasses ≤ (p'.perClassDetectionParams.getD []).length) := by
  unfold ResourceValid at h
  unfold initResource
  split at h
  · rename_i hdetector
    obtain ⟨params, hparams, hlen⟩ := hclasses (.inl hdetector)
    have hname : ¬ (p.customBBoxParseFuncName ≠ [] ∧ p.customBBoxParseFuncName ∉ bboxParsers) := by
      rintro ⟨hne, hnot⟩
      exact hnot (h.1.resolve_left hne)
    have hdbscan : ¬ ((p.clusterMode = .dbscan ∨ p.clusterMode = .dbscanNmsHybrid) ∧ env.dbscanCreated = false) := by
      rintro ⟨hmode, hno⟩
      rw [h.2 hmode] at hno
      cases hno
    rw [if_neg (by simp [hparams]), if_neg hname, if_neg hdbscan]
    refine ⟨_, _, rfl, fun _ => ?_⟩
    show (replaceGroupRectangles env p).numDetectedClasses ≤ _
    rw [numDetectedClasses_replaceGroupRectangles, length_replaceGroupRectangles, hparams, ← hlen]
    exact Nat.le_refl _
  · rename_i hclassifier
    have hname : ¬ (p.customClassifierParseFuncName ≠ [] ∧ p.customClassifierParseFuncName ∉ classifierParsers) := by
      rintro ⟨hne, hnot⟩
      exact hnot (h.2.resolve_left hne)
    rw [if_neg h.1, if_neg hname]
    refine ⟨_, _, rfl, fun hdetects => ?_⟩
    have htype : p.networkType.Detects := hdetects
    rw [hclassifier] at htype
    exact absurd htype (by decide)
  · rename_i hsegmentation
    refine ⟨_, _, rfl, fun hdetects => ?_⟩
    have htype : p.networkType.Detects := hdetects
    rw [hsegmentation] at htype
    exact absurd htype (by decide)
  · rename_i hinstance
    obtain ⟨params, hparams, hlen⟩ := hclasses (.inr hinstance)
    have hname : ¬ (p.customBBoxInstanceMaskParseFuncName ∉ instanceMaskParsers) := fun hnot => hnot h.2
    rw [if_neg (by simp [h.1]), if_neg (by simp [hparams]), if_neg hname]
    refine ⟨_, _, rfl, fun _ => ?_⟩
    show p.numDetectedClasses ≤ _
    rw [hparams, ← hlen]
    exact Nat.le_refl _
  · exact h.elim

/-- The post-processor is made from the parameters that are in place. -/
theorem preparePostProcess_ok (h : ResourceValid env a.initParams)
    (hclasses : a.initParams.networkType.Detects → ∃ params : List DetectionParams,
      a.initParams.perClassDetectionParams = some params ∧ params.length = a.initParams.numDetectedClasses) :
    ∃ a', preparePostProcess env a = .ok a' ∧ a'.Coherent env := by
  obtain ⟨pp, p, hp, hle⟩ := initResource_ok h hclasses a.gieUniqueId a.gpuId
  refine ⟨{ a with initParams := p, postprocessor := some pp }, ?_, ?_⟩
  · rw [preparePostProcess, hp]
  · constructor
    · intro pp' hpp
      obtain rfl := Option.some.inj hpp
      exact ⟨a.initParams, hp⟩
    · intro pp' hpp hdetects
      obtain rfl := Option.some.inj hpp
      exact hle hdetects

theorem configure_ok (h : Accepted env a groups entries) :
    ∃ a', configure env a groups entries = .ok a' ∧ a'.Coherent env := by
  have hresource := h.resource
  unfold configure
  rw [properties_ok h.properties]
  dsimp only
  by_cases hdetects : (applyEntries env a entries).initParams.networkType.Detects
  · obtain ⟨params, hlen, hparams⟩ := classParams_ok (h.classes hdetects)
    rw [if_pos hdetects, hparams]
    have hvalid : ResourceValid env ((applyEntries env a entries).withClasses params).initParams := hresource
    exact preparePostProcess_ok hvalid fun _ => ⟨params, rfl, hlen⟩
  · have hknown : (applyEntries env a entries).initParams.networkType ≠ .other := by
      intro hother
      unfold ResourceValid at hresource
      rw [hother] at hresource
      exact hresource
    rw [if_neg hdetects, if_neg hknown]
    exact preparePostProcess_ok hresource fun hd => absurd hd hdetects

theorem setConfigFile_accepted (h : Accepted env a groups entries) :
    ∃ a', setConfigFile env a (.document groups) = (.returned true true, a') ∧ a'.Coherent env := by
  obtain ⟨a', ha', hcoherent⟩ := configure_ok h
  refine ⟨a', ?_, hcoherent⟩
  rw [setConfigFile, h.found]
  dsimp only
  rw [ha']

theorem setConfigFile_rejected {file : ConfigFile} (h : file.Rejected) :
    setConfigFile env a file = (.returned false true, a) := by
  rcases file with _ | _ | groups
  · rfl
  · exact h.elim
  · have hnone : propertyEntries groups = none := h
    rw [setConfigFile, hnone]

end PostProcess
end DeepStream
