/-
# Serializing and deserializing the metadata of a video batch

`serialize_data` writes the metadata of a batch into a message and hangs its
bytes on the batch as a user meta; `deserialize_data` reads them back into the
metas that the batch of the receiving side already has, and into object metas
from the pool. `none` is an undefined result: a NULL pointer followed, an index
out of range, a text that does not fit its buffer, a loop without an end.

Protobuf and the metadata library are parameters.
-/
import DeepStream.MetaUtils.Meta

namespace DeepStream
namespace MetaUtils

structure NvdsLib where
  /-- `nvds_get_user_meta_type ("NVIDIA.USER.CUSTOM_META")` -/
  userCustomMeta : UInt32
  serializeToString : Dsmeta.Nvdsbatchmeta → Bytes
  /-- The message after the call, whatever it returned. -/
  parseFromString : Bytes → Dsmeta.Nvdsbatchmeta
  acquireObjMetaFromPool : NvDsObjectMeta
  addObjMetaToFrame : NvDsFrameMeta → NvDsObjectMeta → Option ℕ → NvDsFrameMeta
  /-- Where `nvds_add_display_meta_to_frame` links a meta: behind the list or in front of it. -/
  addDisplayMetaAtEnd : Bool

/-- The first `n` elements, read one by one. -/
def readArray {α : Type} (array : List α) (n : ℕ) : Option (List α) := (List.range n).mapM (array[·]?)

/-! ### The serializer -/

/-- The rectangle of an object; `reserve` is not set. -/
def osdrectp (r : NvOSDRectParams) : Dsmeta.Nvosdrectparams := { r.toMsg with reserve := 0 }

/-- The loop takes the byte count for a number of floats. -/
def osdmaskp (m : NvOSDMaskParams) : Option Dsmeta.Nvosdmaskparams :=
  (readArray (m.data.getD []) m.size.toNat).map fun data => { m.toMsg with data := data }

/-- The texts of objects and of display metas; `set_bg_clr` is not set. -/
def osdtextp (t : NvOSDTextParams) : Option Dsmeta.Nvosdtextparams :=
  t.toMsg.map fun m => { m with setBgClr := 0 }

def disparrowp (a : NvOSDArrowParams) : Dsmeta.Nvosdarrowparams := { a.toMsg with reserve := 0 }

def dispcirclep (c : NvOSDCircleParams) : Dsmeta.Nvosdcircleparams := { c.toMsg with reserve := 0 }

def serializeObject (o : NvDsObjectMeta) : Option Dsmeta.Nvdsobjectmeta := do
  let mask ← osdmaskp o.maskParams
  let text ← osdtextp o.textParams
  let classifiers ← o.classifierMetaList.mapM (·.toMsg)
  return {
    baseMeta := o.baseMeta.toMsg
    uniqueComponentId := o.uniqueComponentId
    classId := o.classId
    objectId := o.objectId
    confidence := o.confidence
    trackerConfidence := o.trackerConfidence
    miscObjInfo := o.miscObjInfo.toList
    reserve := o.reserved.toList
    detectorBboxInfo := o.detectorBboxInfo.toMsg
    trackerBboxInfo := o.trackerBboxInfo.toMsg
    rectParams := osdrectp o.rectParams
    maskParams := mask
    textParams := text
    objLabel := o.objLabel.val.val
    classifierMetaList := classifiers }

/-- `misc_osd_data` and `reserve` are not set. -/
def serializeDisplay (d : NvDsDisplayMeta) : Option Dsmeta.Nvdsdisplaymeta := do
  let rects ← readArray d.rectParams.toList d.numRects.toNat
  let texts ← (← readArray d.textParams.toList d.numLabels.toNat).mapM osdtextp
  let lines ← readArray d.lineParams.toList d.numLines.toNat
  let arrows ← readArray d.arrowParams.toList d.numArrows.toNat
  let circles ← readArray d.circleParams.toList d.numCircles.toNat
  return {
    baseMeta := d.baseMeta.toMsg
    numRects := d.numRects
    numLabels := d.numLabels
    numLines := d.numLines
    numArrows := d.numArrows
    numCircles := d.numCircles
    rectParams := rects.map (·.toMsg)
    textParams := texts
    lineParams := lines.map (·.toMsg)
    arrowParams := arrows.map disparrowp
    circleParams := circles.map dispcirclep
    miscOsdData := []
    reserve := [] }

/-- What the serializer writes into `reserved` of a frame before it copies it. -/
def serializedReserved : List.Vector Int64 maxReservedFields := ⟨[0xAA, 0xAB, 0xAC, 0xAD], rfl⟩

def serializeFrame (f : NvDsFrameMeta) : Option Dsmeta.Nvdsframemeta := do
  let objects ← f.objMetaList.mapM serializeObject
  let displays ← f.displayMetaList.mapM serializeDisplay
  return {
    baseMeta := f.baseMeta.toMsg
    padIndex := f.padIndex
    batchId := f.batchId
    frameNum := f.frameNum
    bufPts := f.bufPts
    ntpTimestamp := f.ntpTimestamp
    sourceId := f.sourceId
    numSurfacesPerFrame := f.numSurfacesPerFrame
    sourceFrameWidth := f.sourceFrameWidth
    sourceFrameHeight := f.sourceFrameHeight
    surfaceType := f.surfaceType
    surfaceIndex := f.surfaceIndex
    numObjMeta := f.numObjMeta
    binferdone := f.bInferDone
    pipelineWidth := f.pipelineWidth
    pipelineHeight := f.pipelineHeight
    miscFrameInfo := f.miscFrameInfo.toList
    reserve := serializedReserved.toList
    objMetaList := objects
    displayMetaList := displays }

/-- The type of the batch is set on a copy of `base_meta` that is dropped. -/
def serializeBatch (batch : NvDsBatchMeta) : Option Dsmeta.Nvdsbatchmeta := do
  let frames ← batch.frameMetaList.mapM serializeFrame
  return {
    baseMeta := ⟨0⟩
    maxFramesInBatch := batch.maxFramesInBatch
    numFramesInBatch := batch.numFramesInBatch
    frameMetaList := frames
    miscBatchInfo := batch.miscBatchInfo.toList
    reserve := [] }

def setMetadataPtr (mem : Bytes) : NvdsCustomPayload :=
  let memSize := UInt32.ofNat mem.length
  ⟨0xABCDEF, memSize, mem.take memSize.toNat⟩

/-- The batch as it is left, and the user meta that is added to it. -/
def serializeData (lib : NvdsLib) (batch : NvDsBatchMeta) : Option (NvDsBatchMeta × NvDsUserMeta) := do
  let batchmeta ← serializeBatch batch
  let frames := batch.frameMetaList.map fun f => { f with reserved := serializedReserved }
  return ({ batch with frameMetaList := frames },
    ⟨⟨lib.userCustomMeta⟩, setMetadataPtr (lib.serializeToString batchmeta)⟩)

/-! ### The deserializer -/

def restoreColor (m : Dsmeta.Nvosdcolorparams) : NvOSDColorParams := ⟨m.red, m.green, m.blue, m.alpha⟩

def restoreBbox (m : Dsmeta.Nvdscompbboxinfo) : NvDsCompBboxInfo :=
  ⟨⟨m.orgBboxCoords.left, m.orgBboxCoords.top, m.orgBboxCoords.width, m.orgBboxCoords.height⟩⟩

def restoreRect (m : Dsmeta.Nvosdrectparams) : NvOSDRectParams where
  left := m.left
  top := m.top
  width := m.width
  height := m.height
  borderWidth := m.borderWidth
  borderColor := restoreColor m.borderColor
  reserved := m.reserve
  hasColorInfo := m.hasColorInfo
  colorId := m.colorId
  hasBgColor := m.hasBgColor
  bgColor := restoreColor m.bgcolor

/-- The first `n` values of `src` written to `dst`, which may be NULL. -/
def writeData (src : List FloatBits) (n : ℕ) (dst : Option (List FloatBits)) : Option (Option (List FloatBits)) :=
  (List.range n).foldlM (fun dst i => do
    let data ← dst
    let x ← src[i]?
    if i < data.length then some (some (data.set i x)) else none) dst

def restoreMask (p : NvOSDMaskParams) (m : Dsmeta.Nvosdmaskparams) : Option NvOSDMaskParams := do
  let data ← writeData m.data m.size.toNat p.data
  return ⟨data, m.size, m.threshold, m.width, m.height⟩

/-- A buffer of `size` bytes where there is none, then the text if it is not empty. -/
def restoreString (p : CharPtr) (size : ℕ) (s : Bytes) : Option CharPtr :=
  let p := if p = none then gMalloc size else p
  if s = [] then some p else p.strcpy (cStr s)

def restoreText (t : NvOSDTextParams) (m : Dsmeta.Nvosdtextparams) : Option NvOSDTextParams := do
  let displayText ← restoreString t.displayText m.displayText.length m.displayText
  let fontName ← restoreString t.fontParams.fontName m.fontParams.fontSize.toNat m.fontParams.fontName
  return {
    displayText := displayText
    xOffset := m.xOffset
    yOffset := m.yOffset
    fontParams := ⟨fontName, m.fontParams.fontSize, restoreColor m.fontParams.fontColor⟩
    setBgClr := m.setBgClr
    textBgClr := restoreColor m.textBgClr }

/-- The texts of a display meta keep their background colour. -/
def restoreDisplayText (t : NvOSDTextParams) (m : Dsmeta.Nvosdtextparams) : Option NvOSDTextParams :=
  (restoreText t m).map fun t' => { t' with textBgClr := t.textBgClr }

def restoreLine (m : Dsmeta.Nvosdlineparams) : NvOSDLineParams :=
  ⟨m.x1, m.y1, m.x2, m.y2, m.lineWidth, restoreColor m.lineColor⟩

def restoreArrow (m : Dsmeta.Nvosdarrowparams) : NvOSDArrowParams :=
  ⟨m.x1, m.y1, m.x2, m.y2, m.arrowWidth, m.arrowHead, restoreColor m.arrowColor, m.reserve⟩

def restoreCircle (m : Dsmeta.Nvosdcircleparams) : NvOSDCircleParams :=
  ⟨m.xc, m.yc, m.radius, restoreColor m.circleColor, m.hasBgColor, restoreColor m.circleBgColor, m.reserve⟩

/-- The metas of a list, or the entries of an array, are filled from the
messages in order; there have to be enough of them. -/
def restoreEach {α β : Type} (f : α → β → Option α) : List α → List β → Option (List α)
  | nodes, [] => some nodes
  | [], _ :: _ => none
  | node :: nodes, m :: ms => do
    let node' ← f node m
    let nodes' ← restoreEach f nodes ms
    return node' :: nodes'

theorem restoreEach_length {α β : Type} {f : α → β → Option α} : ∀ {nodes nodes' : List α} {ms : List β},
    restoreEach f nodes ms = some nodes' → nodes'.length = nodes.length
  | nodes, nodes', [], h => by
    rw [restoreEach, Option.some.injEq] at h
    rw [h]
  | [], _, _ :: _, h => by simp [restoreEach] at h
  | node :: nodes, nodes', m :: ms, h => by
    simp only [restoreEach, Option.bind_eq_bind, Option.bind_eq_some_iff, Option.pure_def,
      Option.some.injEq] at h
    obtain ⟨node', -, rest, hr, rfl⟩ := h
    simp [restoreEach_length hr]

def restoreArray {α β : Type} {n : ℕ} (f : α → β → Option α) (array : List.Vector α n) (ms : List β) :
    Option (List.Vector α n) :=
  match h : restoreEach f array.toList ms with
  | none => none
  | some entries => some ⟨entries, (restoreEach_length h).trans array.toList_length⟩

/-- Reads a repeated field into an array of `n` numbers. -/
def restoreFields {n : ℕ} (fields : List Int64) : Option (List.Vector Int64 n) :=
  if h : n ≤ fields.length then some ⟨fields.take n, List.length_take_of_le h⟩ else none

/-- `pResult_label` is not restored. -/
def restoreLabel (l : NvDsLabelInfo) (m : Dsmeta.Nvdslabelinfo) : NvDsLabelInfo where
  baseMeta := ⟨m.baseMeta.metaType⟩
  numClasses := m.numClasses
  labelId := m.labelId.toUInt32
  resultProb := m.resultProb
  resultClassId := m.resultClassId
  resultLabel := strncpy (cStr m.resultLabel)
  pResultLabel := l.pResultLabel

/-- The loop over the labels ends only where it fails: its condition is the
number of labels, not a comparison with it. -/
def restoreLabelsFrom (ms : List Dsmeta.Nvdslabelinfo) : ℕ → List NvDsLabelInfo → Option (List NvDsLabelInfo)
  | _, [] => none
  | i, l :: rest => do
    let m ← ms[i]?
    let rest' ← restoreLabelsFrom ms (i + 1) rest
    return restoreLabel l m :: rest'

def restoreLabels (nodes : List NvDsLabelInfo) (ms : List Dsmeta.Nvdslabelinfo) : Option (List NvDsLabelInfo) :=
  if ms.length = 0 then some nodes else restoreLabelsFrom ms 0 nodes

/-- The type of the classifier meta is not restored. -/
def restoreClassifier (c : NvDsClassifierMeta) (m : Dsmeta.Nvdsclassifiermeta) : Option NvDsClassifierMeta := do
  let classifierType ← if m.classifierType = [] then some c.classifierType
    else c.classifierType.strcpy (cStr m.classifierType)
  let labels ← restoreLabels c.labelInfoList m.labelInfoList
  return { c with
    numLabels := m.numLabels
    uniqueComponentId := m.uniqueComponentId
    classifierType := classifierType
    labelInfoList := labels }

/-- Fills an object meta from the pool; `reserve` is not restored, and
classifier metas are only sought in the list that the meta has. -/
def restoreObject (o : NvDsObjectMeta) (m : Dsmeta.Nvdsobjectmeta) : Option NvDsObjectMeta := do
  let mask ← restoreMask o.maskParams m.maskParams
  let text ← restoreText o.textParams m.textParams
  let misc ← restoreFields m.miscObjInfo
  let classifiers ← restoreEach restoreClassifier o.classifierMetaList m.classifierMetaList
  return { o with
    baseMeta := ⟨m.baseMeta.metaType⟩
    uniqueComponentId := m.uniqueComponentId
    classId := m.classId
    objectId := m.objectId
    confidence := m.confidence
    trackerConfidence := m.trackerConfidence
    detectorBboxInfo := restoreBbox m.detectorBboxInfo
    trackerBboxInfo := restoreBbox m.trackerBboxInfo
    rectParams := restoreRect m.rectParams
    maskParams := mask
    textParams := text
    objLabel := strncpy (cStr m.objLabel)
    miscObjInfo := misc
    classifierMetaList := classifiers }

/-- The loop runs to the count the message states, not to the length of its list. -/
def restoreObjects (lib : NvdsLib) : ℕ → List Dsmeta.Nvdsobjectmeta → NvDsFrameMeta → Option NvDsFrameMeta
  | 0, _, frame => some frame
  | _ + 1, [], _ => none
  | n + 1, m :: ms, frame => do
    let obj ← restoreObject lib.acquireObjMetaFromPool m
    restoreObjects lib n ms (lib.addObjMetaToFrame frame obj none)

def restoreDisplay (d : NvDsDisplayMeta) (m : Dsmeta.Nvdsdisplaymeta) : Option NvDsDisplayMeta := do
  let rects ← restoreArray (fun _ r => some (restoreRect r)) d.rectParams m.rectParams
  let texts ← restoreArray restoreDisplayText d.textParams m.textParams
  let lines ← restoreArray (fun _ l => some (restoreLine l)) d.lineParams m.lineParams
  let arrows ← restoreArray (fun _ a => some (restoreArrow a)) d.arrowParams m.arrowParams
  let circles ← restoreArray (fun _ c => some (restoreCircle c)) d.circleParams m.circleParams
  return { d with
    baseMeta := ⟨m.baseMeta.metaType⟩
    numRects := m.numRects
    numLabels := m.numLabels
    numLines := m.numLines
    numArrows := m.numArrows
    numCircles := m.numCircles
    rectParams := rects
    textParams := texts
    lineParams := lines
    arrowParams := arrows
    circleParams := circles }

/-- The walk over the display metas of a frame: the metas, the nodes of the list,
each with the index of its meta, and the position of the node reached. -/
structure DisplayWalk where
  metas : List NvDsDisplayMeta
  nodes : List ℕ
  node : Option ℕ

/-- The meta under the node is filled, the node advances, and the meta is linked
into the list once more. -/
def DisplayWalk.restore (lib : NvdsLib) (w : DisplayWalk) (m : Dsmeta.Nvdsdisplaymeta) : Option DisplayWalk := do
  let k ← w.node
  let i ← w.nodes[k]?
  let display ← restoreDisplay (← w.metas[i]?) m
  let next := if k + 1 < w.nodes.length then some (k + 1) else none
  return if lib.addDisplayMetaAtEnd then ⟨w.metas.set i display, w.nodes ++ [i], next⟩
    else ⟨w.metas.set i display, i :: w.nodes, next.map (· + 1)⟩

def restoreDisplays (lib : NvdsLib) (displays : List NvDsDisplayMeta) (ms : List Dsmeta.Nvdsdisplaymeta) :
    Option (List NvDsDisplayMeta) := do
  let start := ⟨displays, List.range displays.length, if displays = [] then none else some 0⟩
  let w ← ms.foldlM (DisplayWalk.restore lib) start
  return w.nodes.filterMap (w.metas[·]?)

def restoreFrame (lib : NvdsLib) (f : NvDsFrameMeta) (m : Dsmeta.Nvdsframemeta) : Option NvDsFrameMeta := do
  let misc ← restoreFields m.miscFrameInfo
  let reserved ← restoreFields m.reserve
  let frame ← restoreObjects lib m.numObjMeta.toNat m.objMetaList { f with
    padIndex := m.padIndex
    batchId := m.batchId
    frameNum := m.frameNum
    bufPts := m.bufPts
    ntpTimestamp := m.ntpTimestamp
    sourceId := m.sourceId
    numSurfacesPerFrame := m.numSurfacesPerFrame
    sourceFrameWidth := m.sourceFrameWidth
    sourceFrameHeight := m.sourceFrameHeight
    surfaceType := m.surfaceType
    surfaceIndex := m.surfaceIndex
    numObjMeta := 0
    bInferDone := m.binferdone
    pipelineWidth := m.pipelineWidth
    pipelineHeight := m.pipelineHeight
    miscFrameInfo := misc
    reserved := reserved }
  let displays ← restoreDisplays lib frame.displayMetaList m.displayMetaList
  return { frame with displayMetaList := displays }

/-- Every frame of the batch takes the message at its place. -/
def restoreFrames (lib : NvdsLib) : List NvDsFrameMeta → List Dsmeta.Nvdsframemeta → Option (List NvDsFrameMeta)
  | [], _ => some []
  | _ :: _, [] => none
  | f :: fs, m :: ms => do
    let f' ← restoreFrame lib f m
    let fs' ← restoreFrames lib fs ms
    return f' :: fs'

/-! ### Clearing -/

def NvOSDColorParams.zero : NvOSDColorParams := ⟨0, 0, 0, 0⟩

def NvOSDRectParams.zero : NvOSDRectParams := ⟨0, 0, 0, 0, 0, .zero, 0, 0, .zero, 0, 0⟩

def NvOSDTextParams.zero : NvOSDTextParams := ⟨none, 0, 0, ⟨none, 0, .zero⟩, 0, .zero⟩

def clearDisplay (d : NvDsDisplayMeta) : NvDsDisplayMeta := { d with
  numRects := 0
  numLabels := 0
  numLines := 0
  numArrows := 0
  numCircles := 0
  rectParams := .replicate _ .zero
  textParams := .replicate _ .zero
  lineParams := .replicate _ ⟨0, 0, 0, 0, 0, .zero⟩
  arrowParams := .replicate _ ⟨0, 0, 0, 0, 0, 0, .zero, 0⟩
  circleParams := .replicate _ ⟨0, 0, 0, .zero, 0, .zero, 0⟩ }

/-- What `CLEAR_NVDS_BATCH_META=yes` does to a frame. -/
def clearFrame (f : NvDsFrameMeta) : NvDsFrameMeta := { f with
  objMetaList := f.objMetaList.map fun o => { o with rectParams := .zero, textParams := .zero }
  displayMetaList := f.displayMetaList.map clearDisplay
  padIndex := 0
  batchId := 0
  frameNum := 0
  ntpTimestamp := 0
  numSurfacesPerFrame := 0
  sourceId := 0
  sourceFrameWidth := 0
  sourceFrameHeight := 0
  surfaceType := 0
  surfaceIndex := 0
  numObjMeta := 0
  bInferDone := false }

/-- The user meta at which the search stops: the first of the wanted type, or the last one. -/
def findUserMeta (metaType : UInt32) : List NvDsUserMeta → Option NvDsUserMeta
  | [] => none
  | [u] => some u
  | u :: rest => if u.baseMeta.metaType = metaType then some u else findUserMeta metaType rest

def deserializeData (lib : NvdsLib) (clear : Bool) (batch : NvDsBatchMeta) : Option NvDsBatchMeta := do
  let frames := if clear then batch.frameMetaList.map clearFrame else batch.frameMetaList
  let userMeta ← findUserMeta lib.userCustomMeta batch.batchUserMetaList
  if userMeta.baseMeta.metaType = lib.userCustomMeta then
    let batchmeta := lib.parseFromString userMeta.userMetaData.payload
    let frames ← restoreFrames lib frames batchmeta.frameMetaList
    return { batch with
      maxFramesInBatch := batchmeta.maxFramesInBatch
      numFramesInBatch := batchmeta.numFramesInBatch
      frameMetaList := frames }
  else
    return { batch with frameMetaList := frames }

end MetaUtils
end DeepStream
