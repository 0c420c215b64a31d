/-
# The metadata of a video batch and the schema of its messages

The structures of `nvdsmeta.h` and `nvll_osd_struct.h` with the fields that the
schema `ds_meta.proto` knows, and the messages of the schema. A `float` and a
`double` are their bits, since values are only copied. A text is a list of bytes
without the terminating NUL; a `char *` points at a buffer of a known size. Lists
of metadata are lists of values, a parent link is a position in the object list.

`toMsg` says which message stands for a structure: every field of the schema has
the value of the structure's field. It is what a lossless serializer would write.
-/
import Mathlib.Data.List.TakeWhile
import Mathlib.Data.Vector.Basic

namespace DeepStream
namespace MetaUtils

/-! ### Texts -/

abbrev FloatBits := UInt32
abbrev DoubleBits := UInt64
abbrev Bytes := List UInt8

/-- The bytes of a C string in front of its NUL. -/
abbrev CString := { s : Bytes // (0 : UInt8) ∉ s }

/-- A buffer on the heap; without a text nothing was written to it. -/
structure CharBuffer where
  size : ℕ
  text : Option CString
  deriving DecidableEq

abbrev CharPtr := Option CharBuffer

/-- What a string field says of a pointer: NULL is the empty text, reading an
unwritten buffer is undefined. -/
def CharPtr.read : CharPtr → Option Bytes
  | none => some []
  | some buffer => buffer.text.map (·.val)

/-- `g_malloc (0)` is NULL. -/
def gMalloc (size : ℕ) : CharPtr := if size = 0 then none else some ⟨size, none⟩

/-- The text and its NUL have to fit. -/
def CharPtr.strcpy (s : CString) : CharPtr → Option CharPtr
  | none => none
  | some buffer => if s.val.length < buffer.size then some (some ⟨buffer.size, some s⟩) else none

/-- `std::string::c_str` as a C function reads it. -/
def cStr (s : Bytes) : CString :=
  ⟨s.takeWhile (· != 0), fun h => by simpa using List.mem_takeWhile_imp h⟩

def maxUserFields : ℕ := 4
def maxReservedFields : ℕ := 4
def maxLabelSize : ℕ := 128
def maxElementsInDisplayMeta : ℕ := 16

/-- A `gchar` array that holds a terminated string. -/
abbrev Label := { s : CString // s.val.length < maxLabelSize }

def Label.empty : Label := ⟨⟨[], by decide⟩, by decide⟩

/-- `strncpy` of `MAX_LABEL_SIZE - 1` bytes into an array whose last byte is 0. -/
def strncpy (s : CString) : Label :=
  ⟨⟨s.val.take (maxLabelSize - 1), fun h => s.property (List.mem_of_mem_take h)⟩, by
    simp only [List.length_take, maxLabelSize]
    omega⟩

/-! ### The structures -/

structure NvDsBaseMeta where
  metaType : UInt32
  deriving DecidableEq

structure NvOSDColorParams where
  red : DoubleBits
  green : DoubleBits
  blue : DoubleBits
  alpha : DoubleBits
  deriving DecidableEq

structure NvBboxCoords where
  left : FloatBits
  top : FloatBits
  width : FloatBits
  height : FloatBits
  deriving DecidableEq

structure NvDsCompBboxInfo where
  orgBboxCoords : NvBboxCoords
  deriving DecidableEq

structure NvOSDRectParams where
  left : FloatBits
  top : FloatBits
  width : FloatBits
  height : FloatBits
  borderWidth : UInt32
  borderColor : NvOSDColorParams
  hasBgColor : UInt32
  reserved : UInt32
  bgColor : NvOSDColorParams
  hasColorInfo : Int32
  colorId : Int32
  deriving DecidableEq

/-- `size` counts bytes, `data` is NULL or a block of floats. -/
structure NvOSDMaskParams where
  data : Option (List FloatBits)
  size : UInt32
  threshold : FloatBits
  width : UInt32
  height : UInt32
  deriving DecidableEq

structure NvOSDFontParams where
  fontName : CharPtr
  fontSize : UInt32
  fontColor : NvOSDColorParams
  deriving DecidableEq

structure NvOSDTextParams where
  displayText : CharPtr
  xOffset : UInt32
  yOffset : UInt32
  fontParams : NvOSDFontParams
  setBgClr : Int32
  textBgClr : NvOSDColorParams
  deriving DecidableEq

structure NvOSDLineParams where
  x1 : UInt32
  y1 : UInt32
  x2 : UInt32
  y2 : UInt32
  lineWidth : UInt32
  lineColor : NvOSDColorParams
  deriving DecidableEq

structure NvOSDArrowParams where
  x1 : UInt32
  y1 : UInt32
  x2 : UInt32
  y2 : UInt32
  arrowWidth : UInt32
  arrowHead : UInt32
  arrowColor : NvOSDColorParams
  reserved : UInt32
  deriving DecidableEq

structure NvOSDCircleParams where
  xc : UInt32
  yc : UInt32
  radius : UInt32
  circleColor : NvOSDColorParams
  hasBgColor : UInt32
  bgColor : NvOSDColorParams
  reserved : UInt32
  deriving DecidableEq

structure NvDsLabelInfo where
  baseMeta : NvDsBaseMeta
  numClasses : UInt32
  resultLabel : Label
  pResultLabel : CharPtr
  resultClassId : UInt32
  labelId : UInt32
  resultProb : FloatBits
  deriving DecidableEq

structure NvDsClassifierMeta where
  baseMeta : NvDsBaseMeta
  numLabels : UInt32
  uniqueComponentId : Int32
  labelInfoList : List NvDsLabelInfo
  classifierType : CharPtr
  deriving DecidableEq

structure NvDsObjectMeta where
  baseMeta : NvDsBaseMeta
  parent : Option ℕ
  uniqueComponentId : Int32
  classId : Int32
  objectId : UInt64
  detectorBboxInfo : NvDsCompBboxInfo
  trackerBboxInfo : NvDsCompBboxInfo
  confidence : FloatBits
  trackerConfidence : FloatBits
  rectParams : NvOSDRectParams
  maskParams : NvOSDMaskParams
  textParams : NvOSDTextParams
  objLabel : Label
  classifierMetaList : List NvDsClassifierMeta
  miscObjInfo : List.Vector Int64 maxUserFields
  reserved : List.Vector Int64 maxReservedFields
  deriving DecidableEq

structure NvDsDisplayMeta where
  baseMeta : NvDsBaseMeta
  numRects : UInt32
  numLabels : UInt32
  numLines : UInt32
  numArrows : UInt32
  numCircles : UInt32
  rectParams : List.Vector NvOSDRectParams maxElementsInDisplayMeta
  textParams : List.Vector NvOSDTextParams maxElementsInDisplayMeta
  lineParams : List.Vector NvOSDLineParams maxElementsInDisplayMeta
  arrowParams : List.Vector NvOSDArrowParams maxElementsInDisplayMeta
  circleParams : List.Vector NvOSDCircleParams maxElementsInDisplayMeta
  miscOsdData : List.Vector Int64 maxUserFields
  reserved : List.Vector Int64 maxReservedFields
  deriving DecidableEq

structure NvDsFrameMeta where
  baseMeta : NvDsBaseMeta
  padIndex : UInt32
  batchId : UInt32
  frameNum : Int32
  bufPts : UInt64
  ntpTimestamp : UInt64
  sourceId : UInt32
  numSurfacesPerFrame : Int32
  sourceFrameWidth : UInt32
  sourceFrameHeight : UInt32
  surfaceType : UInt32
  surfaceIndex : UInt32
  numObjMeta : UInt32
  bInferDone : Bool
  objMetaList : List NvDsObjectMeta
  displayMetaList : List NvDsDisplayMeta
  miscFrameInfo : List.Vector Int64 maxUserFields
  pipelineWidth : UInt32
  pipelineHeight : UInt32
  reserved : List.Vector Int64 maxReservedFields
  deriving DecidableEq

structure NvdsCustomPayload where
  payloadType : UInt32
  payloadSize : UInt32
  payload : Bytes
  deriving DecidableEq

structure NvDsUserMeta where
  baseMeta : NvDsBaseMeta
  userMetaData : NvdsCustomPayload
  deriving DecidableEq

structure NvDsBatchMeta where
  baseMeta : NvDsBaseMeta
  maxFramesInBatch : UInt32
  numFramesInBatch : UInt32
  frameMetaList : List NvDsFrameMeta
  batchUserMetaList : List NvDsUserMeta
  miscBatchInfo : List.Vector Int64 maxUserFields
  deriving DecidableEq

/-! ### The messages -/

namespace Dsmeta

structure Nvdsbasemeta where
  metaType : UInt32
  deriving DecidableEq

structure Nvbboxcoords where
  left : FloatBits
  top : FloatBits
  width : FloatBits
  height : FloatBits
  deriving DecidableEq

structure Nvdscompbboxinfo where
  orgBboxCoords : Nvbboxcoords
  deriving DecidableEq

structure Nvosdcolorparams where
  red : DoubleBits
  green : DoubleBits
  blue : DoubleBits
  alpha : DoubleBits
  deriving DecidableEq

structure Nvosdrectparams where
  left : FloatBits
  top : FloatBits
  width : FloatBits
  height : FloatBits
  borderWidth : UInt32
  borderColor : Nvosdcolorparams
  hasBgColor : UInt32
  reserve : UInt32
  bgcolor : Nvosdcolorparams
  hasColorInfo : Int32
  colorId : Int32
  deriving DecidableEq

structure Nvosdmaskparams where
  data : List FloatBits
  size : UInt32
  threshold : FloatBits
  width : UInt32
  height : UInt32
  deriving DecidableEq

structure Nvosdfontparams where
  fontName : Bytes
  fontSize : UInt32
  fontColor : Nvosdcolorparams
  deriving DecidableEq

structure Nvosdtextparams where
  displayText : Bytes
  xOffset : UInt32
  yOffset : UInt32
  fontParams : Nvosdfontparams
  setBgClr : Int32
  textBgClr : Nvosdcolorparams
  deriving DecidableEq

structure Nvdslabelinfo where
  baseMeta : Nvdsbasemeta
  numClasses : UInt32
  resultLabel : Bytes
  presultLabel : Bytes
  resultClassId : UInt32
  labelId : Int32
  resultProb : FloatBits
  deriving DecidableEq

structure Nvdsclassifiermeta where
  baseMeta : Nvdsbasemeta
  numLabels : UInt32
  uniqueComponentId : Int32
  labelInfoList : List Nvdslabelinfo
  classifierType : Bytes
  deriving DecidableEq

structure Nvdsobjectmeta where
  baseMeta : Nvdsbasemeta
  uniqueComponentId : Int32
  classId : Int32
  objectId : UInt64
  detectorBboxInfo : Nvdscompbboxinfo
  trackerBboxInfo : Nvdscompbboxinfo
  confidence : FloatBits
  trackerConfidence : FloatBits
  rectParams : Nvosdrectparams
  maskParams : Nvosdmaskparams
  textParams : Nvosdtextparams
  objLabel : Bytes
  classifierMetaList : List Nvdsclassifiermeta
  miscObjInfo : List Int64
  reserve : List Int64
  deriving DecidableEq

structure Nvosdlineparams where
  x1 : UInt32
  y1 : UInt32
  x2 : UInt32
  y2 : UInt32
  lineWidth : UInt32
  lineColor : Nvosdcolorparams
  deriving DecidableEq

structure Nvosdarrowparams where
  x1 : UInt32
  y1 : UInt32
  x2 : UInt32
  y2 : UInt32
  arrowWidth : UInt32
  arrowHead : UInt32
  arrowColor : Nvosdcolorparams
  reserve : UInt32
  deriving DecidableEq

structure Nvosdcircleparams where
  xc : UInt32
  yc : UInt32
  radius : UInt32
  circleColor : Nvosdcolorparams
  hasBgColor : UInt32
  circleBgColor : Nvosdcolorparams
  reserve : UInt32
  deriving DecidableEq

structure Nvdsdisplaymeta where
  baseMeta : Nvdsbasemeta
  numRects : UInt32
  numLabels : UInt32
  numLines : UInt32
  numArrows : UInt32
  numCircles : UInt32
  rectParams : List Nvosdrectparams
  textParams : List Nvosdtextparams
  lineParams : List Nvosdlineparams
  arrowParams : List Nvosdarrowparams
  circleParams : List Nvosdcircleparams
  miscOsdData : List Int64
  reserve : List Int64
  deriving DecidableEq

structure Nvdsframemeta where
  baseMeta : Nvdsbasemeta
  padIndex : UInt32
  batchId : UInt32
  frameNum : Int32
  bufPts : UInt64
  ntpTimestamp : UInt64
  sourceId : UInt32
  numSurfacesPerFrame : Int32
  sourceFrameWidth : UInt32
  sourceFrameHeight : UInt32
  surfaceType : UInt32
  surfaceIndex : UInt32
  numObjMeta : UInt32
  binferdone : Bool
  objMetaList : List Nvdsobjectmeta
  displayMetaList : List Nvdsdisplaymeta
  miscFrameInfo : List Int64
  pipelineWidth : UInt32
  pipelineHeight : UInt32
  reserve : List Int64
  deriving DecidableEq

structure Nvdsbatchmeta where
  baseMeta : Nvdsbasemeta
  maxFramesInBatch : UInt32
  numFramesInBatch : UInt32
  frameMetaList : List Nvdsframemeta
  miscBatchInfo : List Int64
  reserve : List Int64
  deriving DecidableEq

end Dsmeta

/-! ### What the schema carries -/

def NvDsBaseMeta.toMsg (m : NvDsBaseMeta) : Dsmeta.Nvdsbasemeta := ⟨m.metaType⟩

def NvOSDColorParams.toMsg (c : NvOSDColorParams) : Dsmeta.Nvosdcolorparams :=
  ⟨c.red, c.green, c.blue, c.alpha⟩

def NvDsCompBboxInfo.toMsg (b : NvDsCompBboxInfo) : Dsmeta.Nvdscompbboxinfo :=
  ⟨⟨b.orgBboxCoords.left, b.orgBboxCoords.top, b.orgBboxCoords.width, b.orgBboxCoords.height⟩⟩

def NvOSDRectParams.toMsg (r : NvOSDRectParams) : Dsmeta.Nvosdrectparams where
  left := r.left
  top := r.top
  width := r.width
  height := r.height
  borderWidth := r.borderWidth
  borderColor := r.borderColor.toMsg
  hasBgColor := r.hasBgColor
  reserve := r.reserved
  bgcolor := r.bgColor.toMsg
  hasColorInfo := r.hasColorInfo
  colorId := r.colorId

/-- The mask has `size / sizeof (float)` values. -/
def NvOSDMaskParams.toMsg (m : NvOSDMaskParams) : Dsmeta.Nvosdmaskparams where
  data := (m.data.getD []).take (m.size.toNat / 4)
  size := m.size
  threshold := m.threshold
  width := m.width
  height := m.height

def NvOSDFontParams.toMsg (f : NvOSDFontParams) : Option Dsmeta.Nvosdfontparams :=
  f.fontName.read.map fun name => ⟨name, f.fontSize, f.fontColor.toMsg⟩

def NvOSDTextParams.toMsg (t : NvOSDTextParams) : Option Dsmeta.Nvosdtextparams := do
  let text ← t.displayText.read
  let font ← t.fontParams.toMsg
  return ⟨text, t.xOffset, t.yOffset, font, t.setBgClr, t.textBgClr.toMsg⟩

def NvOSDLineParams.toMsg (l : NvOSDLineParams) : Dsmeta.Nvosdlineparams :=
  ⟨l.x1, l.y1, l.x2, l.y2, l.lineWidth, l.lineColor.toMsg⟩

def NvOSDArrowParams.toMsg (a : NvOSDArrowParams) : Dsmeta.Nvosdarrowparams :=
  ⟨a.x1, a.y1, a.x2, a.y2, a.arrowWidth, a.arrowHead, a.arrowColor.toMsg, a.reserved⟩

def NvOSDCircleParams.toMsg (c : NvOSDCircleParams) : Dsmeta.Nvosdcircleparams :=
  ⟨c.xc, c.yc, c.radius, c.circleColor.toMsg, c.hasBgColor, c.bgColor.toMsg, c.reserved⟩

def NvDsLabelInfo.toMsg (l : NvDsLabelInfo) : Option Dsmeta.Nvdslabelinfo :=
  l.pResultLabel.read.map fun presultLabel =>
    ⟨l.baseMeta.toMsg, l.numClasses, l.resultLabel.val.val, presultLabel, l.resultClassId,
      l.labelId.toInt32, l.resultProb⟩

def NvDsClassifierMeta.toMsg (c : NvDsClassifierMeta) : Option Dsmeta.Nvdsclassifiermeta := do
  let labels ← c.labelInfoList.mapM (·.toMsg)
  let classifierType ← c.classifierType.read
  return ⟨c.baseMeta.toMsg, c.numLabels, c.uniqueComponentId, labels, classifierType⟩

def NvDsObjectMeta.toMsg (o : NvDsObjectMeta) : Option Dsmeta.Nvdsobjectmeta := do
  let text ← o.textParams.toMsg
  let classifiers ← o.classifierMetaList.mapM (·.toMsg)
  return {
    baseMeta := o.baseMeta.toMsg
    uniqueComponentId := o.uniqueComponentId
    classId := o.classId
    objectId := o.objectId
    detectorBboxInfo := o.detectorBboxInfo.toMsg
    trackerBboxInfo := o.trackerBboxInfo.toMsg
    confidence := o.confidence
    trackerConfidence := o.trackerConfidence
    rectParams := o.rectParams.toMsg
    maskParams := o.maskParams.toMsg
    textParams := text
    objLabel := o.objLabel.val.val
    classifierMetaList := classifiers
    miscObjInfo := o.miscObjInfo.toList
    reserve := o.reserved.toList }

def NvDsDisplayMeta.toMsg (d : NvDsDisplayMeta) : Option Dsmeta.Nvdsdisplaymeta := do
  let texts ← (d.textParams.toList.take d.numLabels.toNat).mapM (·.toMsg)
  return {
    baseMeta := d.baseMeta.toMsg
    numRects := d.numRects
    numLabels := d.numLabels
    numLines := d.numLines
    numArrows := d.numArrows
    numCircles := d.numCircles
    rectParams := (d.rectParams.toList.take d.numRects.toNat).map (·.toMsg)
    textParams := texts
    lineParams := (d.lineParams.toList.take d.numLines.toNat).map (·.toMsg)
    arrowParams := (d.arrowParams.toList.take d.numArrows.toNat).map (·.toMsg)
    circleParams := (d.circleParams.toList.take d.numCircles.toNat).map (·.toMsg)
    miscOsdData := d.miscOsdData.toList
    reserve := d.reserved.toList }

def NvDsFrameMeta.toMsg (f : NvDsFrameMeta) : Option Dsmeta.Nvdsframemeta := do
  let objects ← f.objMetaList.mapM (·.toMsg)
  let displays ← f.displayMetaList.mapM (·.toMsg)
  return {
    baseMeta := f.baseMeta.toMsg
    padIndex := f.padIndex
    batchId := f.batchId
    frameNum := f.frameNum
    bufPts := f.bufPts
    ntpTimestamp := f.ntpTimestamp
    sourceId := f.sourceId
    numSurfacesPerFrame := f.numSurfacesPerFrame
    sourceFrameWidth := f.sourceFrameWidth
    sourceFrameHeight := f.sourceFrameHeight
    surfaceType := f.surfaceType
    surfaceIndex := f.surfaceIndex
    numObjMeta := f.numObjMeta
    binferdone := f.bInferDone
    objMetaList := objects
    displayMetaList := displays
    miscFrameInfo := f.miscFrameInfo.toList
    pipelineWidth := f.pipelineWidth
    pipelineHeight := f.pipelineHeight
    reserve := f.reserved.toList }

end MetaUtils
end DeepStream
