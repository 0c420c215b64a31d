/-
# The metadata of an audio batch

The library for audio writes the frames of a batch, their classifiers and labels
into a payload, and reads them back into the metas that the receiving batch has.
Unlike the library for video it does not search the user metas for the payload:
it looks at the first one. The round trip gives back what the schema carries
exactly if the payload stands first and nothing has to be restored that the
deserializer leaves as it is: the type of a frame or a classifier, the numbers
that the serializer overwrites, the pointer `pResult_label`, the user metas.

`none` is an undefined result, as for video.
-/
import DeepStream.MetaUtils.RoundTrip

namespace DeepStream
namespace MetaUtils

/-! ### The structures and their messages -/

structure NvDsAudioFrameMeta where
  baseMeta : NvDsBaseMeta
  padIndex : UInt32
  batchId : UInt32
  frameNum : Int32
  bufPts : UInt64
  ntpTimestamp : UInt64
  sourceId : UInt32
  numSamplesPerFrame : Int32
  sampleRate : UInt32
  numChannels : UInt32
  format : UInt32
  layout : UInt32
  bInferDone : Bool
  classId : Int32
  confidence : FloatBits
  classLabel : Label
  classifierMetaList : List NvDsClassifierMeta
  frameUserMetaList : List NvDsUserMeta
  miscFrameInfo : List.Vector Int64 maxUserFields
  reserved : List.Vector Int64 maxReservedFields
  deriving DecidableEq

/-- The batch meta is that of video, its frames are audio frames. -/
structure NvDsAudioBatchMeta where
  baseMeta : NvDsBaseMeta
  maxFramesInBatch : UInt32
  numFramesInBatch : UInt32
  frameMetaList : List NvDsAudioFrameMeta
  batchUserMetaList : List NvDsUserMeta
  miscBatchInfo : List.Vector Int64 maxUserFields
  deriving DecidableEq

namespace Dsmeta

structure Nvdsusermeta where
  baseMeta : Nvdsbasemeta
  userMetaData : Bytes
  deriving DecidableEq

structure Nvdsaudioframemeta where
  baseMeta : Nvdsbasemeta
  padIndex : UInt32
  batchId : UInt32
  frameNum : Int32
  bufPts : UInt64
  ntpTimestamp : UInt64
  sourceId : UInt32
  numSamplesPerFrame : Int32
  sampleRate : UInt32
  numChannels : UInt32
  nvbufaudioformat : UInt32
  nvbufaudiolayout : UInt32
  binferdone : Bool
  classId : Int32
  confidence : FloatBits
  classLabel : Bytes
  classifierMetaList : List Nvdsclassifiermeta
  frameUserMetaList : List Nvdsusermeta
  miscFrameInfo : List Int64
  reserve : List Int64
  deriving DecidableEq

/-- The message `nvdsbatchmeta` of the schema for audio. -/
structure Nvdsaudiobatchmeta where
  baseMeta : Nvdsbasemeta
  maxFramesInBatch : UInt32
  numFramesInBatch : UInt32
  audioFrameMetaList : List Nvdsaudioframemeta
  batchUserMetaList : List Nvdsusermeta
  miscBatchInfo : List Int64
  reserve : List Int64
  deriving DecidableEq

end Dsmeta

def NvDsUserMeta.toMsg (u : NvDsUserMeta) : Dsmeta.Nvdsusermeta := ⟨u.baseMeta.toMsg, u.userMetaData.payload⟩

def NvDsAudioFrameMeta.toMsg (f : NvDsAudioFrameMeta) : Option Dsmeta.Nvdsaudioframemeta := do
  let classifiers ← f.classifierMetaList.mapM (·.toMsg)
  return {
    baseMeta := f.baseMeta.toMsg
    padIndex := f.padIndex
    batchId := f.batchId
    frameNum := f.frameNum
    bufPts := f.bufPts
    ntpTimestamp := f.ntpTimestamp
    sourceId := f.sourceId
    numSamplesPerFrame := f.numSamplesPerFrame
    sampleRate := f.sampleRate
    numChannels := f.numChannels
    nvbufaudioformat := f.format
    nvbufaudiolayout := f.layout
    binferdone := f.bInferDone
    classId := f.classId
    confidence := f.confidence
    classLabel := f.classLabel.val.val
    classifierMetaList := classifiers
    frameUserMetaList := f.frameUserMetaList.map (·.toMsg)
    miscFrameInfo := f.miscFrameInfo.toList
    reserve := f.reserved.toList }

namespace Audio

structure NvdsLib where
  /-- `nvds_get_user_meta_type ("NVIDIA.USER.CUSTOM_META")` -/
  userCustomMeta : UInt32
  serializeToString : Dsmeta.Nvdsaudiobatchmeta → Bytes
  /-- The message after the call, whatever it returned. -/
  parseFromString : Bytes → Dsmeta.Nvdsaudiobatchmeta

/-! ### The serializer -/

/-- The numbers in `reserved` are overwritten before they are copied, the user
metas of the frame are not written. -/
def serializeFrame (f : NvDsAudioFrameMeta) : Option Dsmeta.Nvdsaudioframemeta := do
  let classifiers ← f.classifierMetaList.mapM (·.toMsg)
  return {
    baseMeta := f.baseMeta.toMsg
    padIndex := f.padIndex
    batchId := f.batchId
    frameNum := f.frameNum
    bufPts := f.bufPts
    ntpTimestamp := f.ntpTimestamp
    sourceId := f.sourceId
    numSamplesPerFrame := f.numSamplesPerFrame
    sampleRate := f.sampleRate
    numChannels := f.numChannels
    nvbufaudioformat := f.format
    nvbufaudiolayout := f.layout
    binferdone := f.bInferDone
    classId := f.classId
    confidence := f.confidence
    classLabel := f.classLabel.val.val
    miscFrameInfo := f.miscFrameInfo.toList
    reserve := serializedReserved.toList
    classifierMetaList := classifiers
    frameUserMetaList := [] }

/-- The type of the batch is set on a copy of `base_meta` that is dropped. -/
def serializeBatch (batch : NvDsAudioBatchMeta) : Option Dsmeta.Nvdsaudiobatchmeta := do
  let frames ← batch.frameMetaList.mapM serializeFrame
  return {
    baseMeta := ⟨0⟩
    maxFramesInBatch := batch.maxFramesInBatch
    numFramesInBatch := batch.numFramesInBatch
    miscBatchInfo := batch.miscBatchInfo.toList
    audioFrameMetaList := frames
    batchUserMetaList := []
    reserve := [] }

def setMetadataPtr (mem : Bytes) : NvdsCustomPayload :=
  let memSize := UInt32.ofNat mem.length
  ⟨0xFEDCBA, memSize, mem.take memSize.toNat⟩

/-- The batch as it is left, and the user meta that is added to it. -/
def serializeData (lib : NvdsLib) (batch : NvDsAudioBatchMeta) : Option (NvDsAudioBatchMeta × NvDsUserMeta) := do
  let batchmeta ← serializeBatch batch
  let frames := batch.frameMetaList.map fun f => { f with reserved := serializedReserved }
  return ({ batch with frameMetaList := frames },
    ⟨⟨lib.userCustomMeta⟩, setMetadataPtr (lib.serializeToString batchmeta)⟩)

/-! ### The deserializer -/

/-- The type is copied over what the receiving meta has, unless it is empty. -/
def restoreClassifierType (p : CharPtr) (s : Bytes) : Option CharPtr :=
  if s = [] then some p else p.strcpy (cStr s)

/-- The metas of the receiving list are filled; the type of the classifier meta
is not restored. -/
def restoreClassifier (c : NvDsClassifierMeta) (m : Dsmeta.Nvdsclassifiermeta) : Option NvDsClassifierMeta := do
  let classifierType ← restoreClassifierType c.classifierType m.classifierType
  let labels ← restoreEach (fun l li => some (restoreLabel l li)) c.labelInfoList m.labelInfoList
  return { c with
    numLabels := m.numLabels
    uniqueComponentId := m.uniqueComponentId
    classifierType := classifierType
    labelInfoList := labels }

def restoreFrame (f : NvDsAudioFrameMeta) (m : Dsmeta.Nvdsaudioframemeta) : Option NvDsAudioFrameMeta := do
  let misc ← restoreFields m.miscFrameInfo
  let reserved ← restoreFields m.reserve
  let classifiers ← restoreEach restoreClassifier f.classifierMetaList m.classifierMetaList
  return { f with
    padIndex := m.padIndex
    batchId := m.batchId
    frameNum := m.frameNum
    bufPts := m.bufPts
    ntpTimestamp := m.ntpTimestamp
    sourceId := m.sourceId
    numSamplesPerFrame := m.numSamplesPerFrame
    sampleRate := m.sampleRate
    numChannels := m.numChannels
    format := m.nvbufaudioformat
    layout := m.nvbufaudiolayout
    bInferDone := m.binferdone
    classId := m.classId
    confidence := m.confidence
    classLabel := strncpy (cStr m.classLabel)
    miscFrameInfo := misc
    reserved := reserved
    classifierMetaList := classifiers }

/-- Every frame of the batch takes the message at its place. -/
def restoreFrames : List NvDsAudioFrameMeta → List Dsmeta.Nvdsaudioframemeta → Option (List NvDsAudioFrameMeta)
  | [], _ => some []
  | _ :: _, [] => none
  | f :: fs, m :: ms => do
    let f' ← restoreFrame f m
    let fs' ← restoreFrames fs ms
    return f' :: fs'

/-- What `CLEAR_NVDS_BATCH_META=yes` does to a frame; of the label only the last
byte is cleared, which is no part of the text. -/
def clearFrame (f : NvDsAudioFrameMeta) : NvDsAudioFrameMeta := { f with
  padIndex := 0
  batchId := 0
  frameNum := 0
  bufPts := 0
  ntpTimestamp := 0
  sourceId := 0
  numSamplesPerFrame := 0
  sampleRate := 0
  numChannels := 0
  format := 0
  layout := 0
  bInferDone := false
  classId := 0
  confidence := 0 }

/-- The node of the user metas that is looked at, with the nodes behind it: the
head of the list, whatever it holds. -/
def bMetaList (batch : NvDsAudioBatchMeta) : List NvDsUserMeta := batch.batchUserMetaList

def deserializeData (lib : NvdsLib) (clear : Bool) (batch : NvDsAudioBatchMeta) : Option NvDsAudioBatchMeta := do
  let frames := if clear then batch.frameMetaList.map clearFrame else batch.frameMetaList
  let userMeta ← (bMetaList batch).head?
  if userMeta.baseMeta.metaType = lib.userCustomMeta then
    let batchmeta := lib.parseFromString userMeta.userMetaData.payload
    let frames ← restoreFrames frames batchmeta.audioFrameMetaList
    return { batch with
      maxFramesInBatch := batchmeta.maxFramesInBatch
      numFramesInBatch := batchmeta.numFramesInBatch
      frameMetaList := frames }
  else
    return { batch with frameMetaList := frames }

/-! ### The round trip -/

/-- Protobuf gives the message back; its messages are smaller than 2 GiB. -/
structure NvdsLib.Carries (lib : NvdsLib) (m : Dsmeta.Nvdsaudiobatchmeta) : Prop where
  parse : lib.parseFromString (lib.serializeToString m) = m
  length : (lib.serializeToString m).length < 2 ^ 31

/-- The two frames agree in every field of the schema, their lists in the same order. -/
def SameFrame (f g : NvDsAudioFrameMeta) : Prop := ∃ m, f.toMsg = some m ∧ g.toMsg = some m

/-- The payload made for `src` arrives between other user metas on `dst`: it is
found where it stands, the frames are restored, and next to it are the user
metas of `src`. -/
def RoundTrip (lib : NvdsLib) (clear : Bool) (src dst : NvDsAudioBatchMeta) (before after : List NvDsUserMeta) :
    Prop :=
  ∃ sent userMeta restored, serializeData lib src = some (sent, userMeta) ∧
    bMetaList { dst with batchUserMetaList := before ++ userMeta :: after } = userMeta :: after ∧
    deserializeData lib clear { dst with batchUserMetaList := before ++ userMeta :: after } = some restored ∧
    List.Forall₂ SameFrame src.frameMetaList restored.frameMetaList ∧
    (src.batchUserMetaList.map (·.toMsg)).Sublist
      ((restored.batchUserMetaList.eraseIdx before.length).map (·.toMsg))

/-- The label `l` loses nothing when it is read into `k`. -/
def LabelRestorable (l k : NvDsLabelInfo) : Prop :=
  ∃ text, l.pResultLabel.read = some text ∧ k.pResultLabel.read = some text

/-- The classifier `c` loses nothing when it is read into `d`. -/
structure ClassifierRestorable (c d : NvDsClassifierMeta) : Prop where
  baseMeta : d.baseMeta = c.baseMeta
  labels : List.Forall₂ LabelRestorable c.labelInfoList d.labelInfoList
  classifierType : ∃ text, c.classifierType.read = some text ∧
    if text = [] then d.classifierType.read = some []
    else ∃ buffer, d.classifierType = some buffer ∧ text.length < buffer.size

/-- The frame `f` loses nothing when it is read into `g`. -/
structure FrameRestorable (f g : NvDsAudioFrameMeta) : Prop where
  baseMeta : g.baseMeta = f.baseMeta
  reserved : f.reserved = serializedReserved
  classifiers : List.Forall₂ ClassifierRestorable f.classifierMetaList g.classifierMetaList
  userMetas : f.frameUserMetaList.map (·.toMsg) = g.frameUserMetaList.map (·.toMsg)

/-! ### Labels and classifiers -/

/-- Lists are restored as their elements are, and only into as many. -/
theorem restoreEach_iff {α β : Type} {toMsg : α → Option β} {restore : α → β → Option α} {R : α → α → Prop}
    (h : ∀ a g, (∃ m g', toMsg a = some m ∧ restore g m = some g' ∧ toMsg g' = some m) ↔ R a g) :
    ∀ as gs, (∃ ms gs', as.mapM toMsg = some ms ∧ restoreEach restore gs ms = some gs' ∧
      gs'.mapM toMsg = some ms) ↔ List.Forall₂ R as gs
  | [], [] => by simp [restoreEach]
  | [], g :: gs => by
    simp only [List.mapM_nil, Option.pure_def, Option.some.injEq, List.forall₂_nil_left_iff, reduceCtorEq,
      iff_false]
    rintro ⟨_, gs', rfl, hr, hm⟩
    obtain rfl := Option.some.inj hr
    exact absurd (mapM_eq_some_nil hm) (by simp)
  | a :: as, [] => by
    simp only [List.mapM_cons, Option.bind_eq_bind, Option.bind_eq_some_iff, Option.pure_def,
      Option.some.injEq, List.forall₂_nil_right_iff, reduceCtorEq, iff_false]
    rintro ⟨_, gs', ⟨m, -, ms, -, rfl⟩, hr, -⟩
    simp [restoreEach] at hr
  | a :: as, g :: gs => by
    rw [List.forall₂_cons, ← h a g, ← restoreEach_iff h as gs]
    constructor
    · rintro ⟨_, _, hm, hr, hm'⟩
      simp only [List.mapM_cons, Option.bind_eq_bind, Option.bind_eq_some_iff, Option.pure_def,
        Option.some.injEq] at hm
      obtain ⟨m, hm, ms, hms, rfl⟩ := hm
      simp only [restoreEach, Option.bind_eq_bind, Option.bind_eq_some_iff, Option.pure_def,
        Option.some.injEq] at hr
      obtain ⟨g', hr, gs', hrs, rfl⟩ := hr
      simp only [List.mapM_cons, Option.bind_eq_bind, Option.bind_eq_some_iff, Option.pure_def,
        Option.some.injEq, List.cons.injEq] at hm'
      obtain ⟨m', hm', ms', hms', rfl, rfl⟩ := hm'
      exact ⟨⟨m', g', hm, hr, hm'⟩, ms', gs', hms, hrs, hms'⟩
    · rintro ⟨⟨m, g', hm, hr, hm'⟩, ms, gs', hms, hrs, hms'⟩
      exact ⟨m :: ms, g' :: gs', by simp [List.mapM_cons, hm, hms], by simp [restoreEach, hr, hrs],
        by simp [List.mapM_cons, hm', hms']⟩

theorem toMsg_label_eq_some {l : NvDsLabelInfo} {m : Dsmeta.Nvdslabelinfo} : l.toMsg = some m ↔
    l.pResultLabel.read = some m.presultLabel ∧ m = ⟨l.baseMeta.toMsg, l.numClasses, l.resultLabel.val.val,
      m.presultLabel, l.resultClassId, l.labelId.toInt32, l.resultProb⟩ := by
  rw [NvDsLabelInfo.toMsg, Option.map_eq_some_iff]
  constructor
  · rintro ⟨text, ht, rfl⟩
    exact ⟨ht, rfl⟩
  · rintro ⟨ht, hm⟩
    exact ⟨_, ht, hm.symm⟩

/-- What is read into a label is the label that was written, but for the pointer. -/
theorem restoreLabel_toMsg {l : NvDsLabelInfo} {m : Dsmeta.Nvdslabelinfo} (h : l.toMsg = some m)
    (k : NvDsLabelInfo) : restoreLabel k m = { l with pResultLabel := k.pResultLabel } := by
  rw [(toMsg_label_eq_some.mp h).2]
  simp only [restoreLabel, NvDsBaseMeta.toMsg, strncpy_cStr, UInt32.toUInt32_toInt32]

theorem label_iff (l k : NvDsLabelInfo) :
    (∃ m k', l.toMsg = some m ∧ some (restoreLabel k m) = some k' ∧ k'.toMsg = some m) ↔ LabelRestorable l k := by
  constructor
  · rintro ⟨m, k', hm, hk, hm'⟩
    rw [restoreLabel_toMsg hm] at hk
    obtain rfl := Option.some.inj hk
    exact ⟨m.presultLabel, (toMsg_label_eq_some.mp hm).1, (toMsg_label_eq_some.mp hm').1⟩
  · rintro ⟨text, hl, hk⟩
    let m : Dsmeta.Nvdslabelinfo := ⟨l.baseMeta.toMsg, l.numClasses, l.resultLabel.val.val, text,
      l.resultClassId, l.labelId.toInt32, l.resultProb⟩
    have hm : l.toMsg = some m := toMsg_label_eq_some.mpr ⟨hl, rfl⟩
    refine ⟨m, _, hm, rfl, ?_⟩
    rw [restoreLabel_toMsg hm]
    exact toMsg_label_eq_some.mpr ⟨hk, rfl⟩

theorem classifierType_iff {p : CharPtr} {s : Bytes} (h : (0 : UInt8) ∉ s) :
    (∃ p', restoreClassifierType p s = some p' ∧ p'.read = some s) ↔
      if s = [] then p.read = some [] else ∃ buffer, p = some buffer ∧ s.length < buffer.size := by
  unfold restoreClassifierType
  by_cases hs : s = []
  · simp [hs]
  · rw [if_neg hs, if_neg hs, cStr_eq h]
    cases p with
    | none => simp [CharPtr.strcpy]
    | some buffer =>
      by_cases hlt : s.length < buffer.size
      · simp [CharPtr.strcpy, hlt, CharPtr.read]
      · simp [CharPtr.strcpy, hlt]

theorem classifier_iff (c d : NvDsClassifierMeta) :
    (∃ m d', c.toMsg = some m ∧ restoreClassifier d m = some d' ∧ d'.toMsg = some m) ↔
      ClassifierRestorable c d := by
  constructor
  · rintro ⟨m, d', hm, hd, hm'⟩
    simp only [NvDsClassifierMeta.toMsg, Option.bind_eq_bind, Option.bind_eq_some_iff, Option.pure_def,
      Option.some.injEq] at hm
    obtain ⟨labels, hlabels, text, htext, rfl⟩ := hm
    simp only [restoreClassifier, Option.bind_eq_bind, Option.bind_eq_some_iff, Option.pure_def,
      Option.some.injEq] at hd
    obtain ⟨p, hp, ls, hls, rfl⟩ := hd
    simp only [NvDsClassifierMeta.toMsg, Option.bind_eq_bind, Option.bind_eq_some_iff, Option.pure_def,
      Option.some.injEq, Dsmeta.Nvdsclassifiermeta.mk.injEq] at hm'
    obtain ⟨_, hlabels', _, htext', hbase, -, -, rfl, rfl⟩ := hm'
    have hmeta : d.baseMeta.metaType = c.baseMeta.metaType := congrArg (·.metaType) hbase
    exact ⟨congrArg NvDsBaseMeta.mk hmeta, (restoreEach_iff label_iff _ _).mp ⟨_, ls, hlabels, hls, hlabels'⟩,
      _, htext, (classifierType_iff (CharPtr.read_noNul htext)).mp ⟨p, hp, htext'⟩⟩
  · rintro ⟨hbase, hlabels, text, htext, hroom⟩
    obtain ⟨labels, ls, hlabels, hls, hlabels'⟩ := (restoreEach_iff label_iff _ _).mpr hlabels
    obtain ⟨p, hp, htext'⟩ := (classifierType_iff (CharPtr.read_noNul htext)).mpr hroom
    refine ⟨⟨c.baseMeta.toMsg, c.numLabels, c.uniqueComponentId, labels, text⟩,
      ⟨d.baseMeta, c.numLabels, c.uniqueComponentId, ls, p⟩, ?_, ?_, ?_⟩
    · simp only [NvDsClassifierMeta.toMsg, hlabels, htext]
      rfl
    · simp only [restoreClassifier, hp, hls]
      rfl
    · simp only [NvDsClassifierMeta.toMsg, hlabels', htext', hbase]
      rfl

/-! ### Frames -/

theorem frame_iff (f g : NvDsAudioFrameMeta) :
    (∃ m g', serializeFrame f = some m ∧ restoreFrame g m = some g' ∧ SameFrame f g') ↔ FrameRestorable f g := by
  constructor
  · rintro ⟨m, g', hm, hr, v, hv, hv'⟩
    simp only [serializeFrame, Option.bind_eq_bind, Option.bind_eq_some_iff, Option.pure_def,
      Option.some.injEq] at hm
    obtain ⟨cs, hcs, rfl⟩ := hm
    simp only [restoreFrame, restoreFields_toList, Option.bind_eq_bind, Option.bind_some,
      Option.bind_eq_some_iff, Option.pure_def, Option.some.injEq] at hr
    obtain ⟨ds, hds, rfl⟩ := hr
    simp only [NvDsAudioFrameMeta.toMsg, hcs, Option.bind_eq_bind, Option.bind_some, Option.bind_eq_some_iff,
      Option.pure_def, Option.some.injEq] at hv hv'
    obtain ⟨cs', hcs', rfl⟩ := hv'
    simp only [Dsmeta.Nvdsaudioframemeta.mk.injEq] at hv
    obtain ⟨hbase, -, -, -, -, -, -, -, -, -, -, -, -, -, -, -, rfl, husers, -, hres⟩ := hv
    have hmeta : g.baseMeta.metaType = f.baseMeta.metaType := (congrArg (·.metaType) hbase).symm
    exact ⟨congrArg NvDsBaseMeta.mk hmeta, List.Vector.eq _ _ hres,
      (restoreEach_iff classifier_iff _ _).mp ⟨cs, ds, hcs, hds, hcs'⟩, husers⟩
  · rintro ⟨hbase, hres, hcls, husers⟩
    obtain ⟨cs, ds, hcs, hds, hcs'⟩ := (restoreEach_iff classifier_iff _ _).mpr hcls
    let v : Dsmeta.Nvdsaudioframemeta := ⟨f.baseMeta.toMsg, f.padIndex, f.batchId, f.frameNum, f.bufPts,
      f.ntpTimestamp, f.sourceId, f.numSamplesPerFrame, f.sampleRate, f.numChannels, f.format, f.layout,
      f.bInferDone, f.classId, f.confidence, f.classLabel.val.val, cs, f.frameUserMetaList.map (·.toMsg),
      f.miscFrameInfo.toList, f.reserved.toList⟩
    have hv : f.toMsg = some v := by
      simp only [NvDsAudioFrameMeta.toMsg, hcs]
      rfl
    have hm : serializeFrame f = some { v with frameUserMetaList := [] } := by
      simp only [serializeFrame, hcs, v, hres]
      rfl
    have hr : restoreFrame g { v with frameUserMetaList := [] } = some { f with
        classifierMetaList := ds
        frameUserMetaList := g.frameUserMetaList } := by
      simp only [restoreFrame, v, restoreFields_toList, hds, strncpy_cStr, hbase]
      rfl
    refine ⟨_, _, hm, hr, v, hv, ?_⟩
    simp only [NvDsAudioFrameMeta.toMsg, hcs', ← husers]
    rfl

/-! ### Batches -/

theorem frames_iff (fs gs : List NvDsAudioFrameMeta) :
    (∃ ms gs', fs.mapM serializeFrame = some ms ∧ restoreFrames gs ms = some gs' ∧
      List.Forall₂ SameFrame fs gs') ↔ List.Forall₂ FrameRestorable fs gs :=
  inPlace_iff restoreFrames (fun _ => True) (fun _ => rfl) (fun _ _ _ _ => rfl) (fun _ _ => rfl)
    (fun f g _ => frame_iff f g) fun _ _ => trivial

/-- Clearing takes nothing that the round trip would keep. -/
theorem restorable_clearFrame (f g : NvDsAudioFrameMeta) : FrameRestorable f (clearFrame g) ↔ FrameRestorable f g :=
  ⟨fun h => ⟨h.baseMeta, h.reserved, h.classifiers, h.userMetas⟩,
    fun h => ⟨h.baseMeta, h.reserved, h.classifiers, h.userMetas⟩⟩

/-- What the deserializer makes of the payload of `src` at the head of the user metas. -/
theorem deserializeData_payload {lib : NvdsLib} {src : NvDsAudioBatchMeta} {m : Dsmeta.Nvdsaudiobatchmeta}
    (hc : lib.Carries m) (hm : serializeBatch src = some m) (clear : Bool) (dst : NvDsAudioBatchMeta)
    (after : List NvDsUserMeta) :
    let received := { dst with
      batchUserMetaList := ⟨⟨lib.userCustomMeta⟩, setMetadataPtr (lib.serializeToString m)⟩ :: after }
    deserializeData lib clear received =
      (restoreFrames (if clear then dst.frameMetaList.map clearFrame else dst.frameMetaList)
        m.audioFrameMetaList).map fun frames => { received with
          maxFramesInBatch := src.maxFramesInBatch
          numFramesInBatch := src.numFramesInBatch
          frameMetaList := frames } := by
  have hread : lib.parseFromString (setMetadataPtr (lib.serializeToString m)).payload = m :=
    (congrArg lib.parseFromString (take_memSize hc.length)).trans hc.parse
  have hcounts : m.maxFramesInBatch = src.maxFramesInBatch ∧ m.numFramesInBatch = src.numFramesInBatch := by
    simp only [serializeBatch, Option.bind_eq_bind, Option.bind_eq_some_iff, Option.pure_def,
      Option.some.injEq] at hm
    obtain ⟨_, -, rfl⟩ := hm
    exact ⟨rfl, rfl⟩
  simp only [deserializeData, bMetaList, List.head?_cons, Option.bind_eq_bind, Option.bind_some, ↓reduceIte,
    hread, hcounts.1, hcounts.2]
  exact (Option.map_eq_bind).symm

/-- **The audio metadata survives exactly if the payload stands first and the
receiving batch has what the deserializer does not restore**, for every batch and
all other user metas in front of the payload and behind it. -/
theorem audioRoundTrip_iff (lib : NvdsLib) (clear : Bool) (src dst : NvDsAudioBatchMeta)
    (before after : List NvDsUserMeta) (hc : ∀ m, serializeBatch src = some m → lib.Carries m) :
    RoundTrip lib clear src dst before after ↔
      before = [] ∧ List.Forall₂ FrameRestorable src.frameMetaList dst.frameMetaList ∧
        (src.batchUserMetaList.map (·.toMsg)).Sublist (after.map (·.toMsg)) := by
  let frames := if clear then dst.frameMetaList.map clearFrame else dst.frameMetaList
  have hframes : List.Forall₂ FrameRestorable src.frameMetaList frames ↔
      List.Forall₂ FrameRestorable src.frameMetaList dst.frameMetaList := by
    cases clear with
    | false => exact Iff.rfl
    | true =>
      show List.Forall₂ _ _ (dst.frameMetaList.map clearFrame) ↔ _
      simp only [List.forall₂_map_right_iff, restorable_clearFrame]
  rw [← hframes, ← frames_iff]
  constructor
  · rintro ⟨sent, userMeta, restored, hs, hfound, hr, hsame, husers⟩
    have hbefore : before = [] := List.append_left_eq_self.mp hfound
    subst hbefore
    simp only [serializeData, Option.bind_eq_bind, Option.bind_eq_some_iff, Option.pure_def, Option.some.injEq,
      Prod.mk.injEq] at hs
    obtain ⟨m, hm, -, rfl⟩ := hs
    rw [List.nil_append, deserializeData_payload (hc m hm) hm] at hr
    obtain ⟨gs', hgs, rfl⟩ := Option.map_eq_some_iff.mp hr
    simp only [serializeBatch, Option.bind_eq_bind, Option.bind_eq_some_iff, Option.pure_def,
      Option.some.injEq] at hm
    obtain ⟨ms, hms, rfl⟩ := hm
    exact ⟨rfl, ⟨ms, gs', hms, hgs, hsame⟩, husers⟩
  · rintro ⟨rfl, ⟨ms, gs', hms, hgs, hsame⟩, husers⟩
    let m : Dsmeta.Nvdsaudiobatchmeta :=
      ⟨⟨0⟩, src.maxFramesInBatch, src.numFramesInBatch, ms, [], src.miscBatchInfo.toList, []⟩
    have hm : serializeBatch src = some m := by
      simp only [serializeBatch, hms]
      rfl
    let userMeta : NvDsUserMeta := ⟨⟨lib.userCustomMeta⟩, setMetadataPtr (lib.serializeToString m)⟩
    refine ⟨_, userMeta, { dst with
      maxFramesInBatch := src.maxFramesInBatch
      numFramesInBatch := src.numFramesInBatch
      frameMetaList := gs'
      batchUserMetaList := userMeta :: after }, by rw [serializeData, hm]; rfl, rfl, ?_, hsame, husers⟩
    rw [List.nil_append, deserializeData_payload (hc m hm) hm]
    show Option.map _ (restoreFrames frames ms) = _
    rw [hgs]
    rfl

/-! ### A dog barks -/

/-- The library on a batch whose bytes are `wire`. -/
def libFor (wire : Bytes) (m : Dsmeta.Nvdsaudiobatchmeta) : NvdsLib := ⟨0x10000000, fun _ => wire, fun _ => m⟩

/-- A classifier meta of the type `sound` with one label. -/
def soundClassifier (uniqueComponentId : Int32) (label : NvDsLabelInfo) : NvDsClassifierMeta :=
  ⟨⟨5⟩, 1, uniqueComponentId, [label], some ⟨16, some ⟨[115, 111, 117, 110, 100], by decide⟩⟩⟩

def dogLabel : NvDsLabelInfo := ⟨⟨6⟩, 1, ⟨⟨[100, 111, 103], by decide⟩, by decide⟩, none, 2, 0, 0x3f000000⟩

/-- The frame that the dog was heard in. -/
def dogFrame : NvDsAudioFrameMeta :=
  ⟨⟨25⟩, 1, 0, 5, 33, 0, 1, 1024, 16000, 1, 3, 1, true, 2, 0x3f000000, ⟨⟨[100, 111, 103], by decide⟩, by decide⟩,
    [soundClassifier 2 dogLabel], [], .replicate _ 0, serializedReserved⟩

/-- A frame of the receiving side that nothing was written to yet. -/
def silentFrame : NvDsAudioFrameMeta :=
  ⟨⟨25⟩, 0, 0, 0, 0, 0, 0, 0, 0, 0, 0, 0, false, 0, 0, Label.empty,
    [soundClassifier 0 ⟨⟨0⟩, 0, Label.empty, none, 0, 0, 0⟩], [], .replicate _ 0, .replicate _ 0⟩

def batchOf (frame : NvDsAudioFrameMeta) : NvDsAudioBatchMeta := ⟨⟨24⟩, 1, 1, [frame], [], .replicate _ 0⟩

def dogWire : Bytes := [
  16, 1, 24, 1, 34, 95, 10, 2, 8, 25, 16, 1, 32, 5, 40, 33, 56, 1, 64, 128, 8, 72, 128, 125, 80,
  1, 88, 3, 96, 1, 104, 1, 112, 2, 125, 0, 0, 0, 63, 130, 1, 3, 100, 111, 103, 138, 1, 35, 10, 2,
  8, 5, 16, 1, 24, 2, 34, 18, 10, 2, 8, 6, 16, 1, 26, 3, 100, 111, 103, 40, 2, 61, 0, 0, 0, 63,
  42, 5, 115, 111, 117, 110, 100, 154, 1, 4, 0, 0, 0, 0, 162, 1, 8, 170, 1, 171, 1, 172, 1, 173,
  1, 50, 4, 0, 0, 0, 0]

/-- A meta that another component has put on the buffer. -/
def otherMeta : NvDsUserMeta := ⟨⟨12⟩, ⟨1, 2, [7, 8]⟩⟩

def dogLib : NvdsLib := libFor dogWire ((serializeBatch (batchOf dogFrame)).get rfl)

theorem carries_dogWire {m : Dsmeta.Nvdsaudiobatchmeta} (h : serializeBatch (batchOf dogFrame) = some m) :
    dogLib.Carries m :=
  ⟨Option.some.inj h, show dogWire.length < 2 ^ 31 by decide⟩

theorem dogFrame_restorable : FrameRestorable dogFrame silentFrame :=
  ⟨rfl, rfl, .cons ⟨rfl, .cons ⟨[], rfl, rfl⟩ .nil, _, rfl, _, rfl, by decide⟩ .nil, rfl⟩

/-- In front of another user meta the payload is found and the frame restored. -/
theorem audioRoundTrip_dog : RoundTrip dogLib false (batchOf dogFrame) (batchOf silentFrame) [] [otherMeta] :=
  (audioRoundTrip_iff dogLib false _ _ _ _ fun _ hm => carries_dogWire hm).mpr
    ⟨rfl, .cons dogFrame_restorable .nil, List.nil_sublist _⟩

/-- Behind another user meta the payload is not even looked at. -/
theorem payload_behind_userMeta : ∃ lib src dst other, (∀ m, serializeBatch src = some m → lib.Carries m) ∧
    List.Forall₂ FrameRestorable src.frameMetaList dst.frameMetaList ∧ src.batchUserMetaList = [] ∧
    (∀ userMeta, deserializeData lib false { dst with batchUserMetaList := [other, userMeta] } =
      some { dst with batchUserMetaList := [other, userMeta] }) ∧
    ¬ RoundTrip lib false src dst [other] [] := by
  refine ⟨dogLib, batchOf dogFrame, batchOf silentFrame, otherMeta, fun _ hm => carries_dogWire hm,
    .cons dogFrame_restorable .nil, rfl, fun _ => rfl, ?_⟩
  rintro ⟨_, userMeta, _, -, hfound, -⟩
  have hlen := congrArg List.length hfound
  simp [bMetaList] at hlen

end Audio
end MetaUtils
end DeepStream
