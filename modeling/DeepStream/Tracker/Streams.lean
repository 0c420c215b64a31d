/-
# The streams of the tracker

What `NvTrackerProc` keeps of the streams it tracks: the sub-batch of every
surface of a source (`ssidSubBatchMap`), the sequence index of every pad
(`padIndexSeqIndexMap`), the slots of the dynamic sub-batches
(`subBatchAllocationMap`) and the object id offsets (`objectIdOffsetMap`), with
the operations on them: a stream gets a sub-batch when its first frame is
dispatched and loses it when its source is removed.
-/
import DeepStream.Lib.Table

namespace DeepStream
namespace Tracker

open Std

abbrev BatchId := ℕ
abbrev SurfaceStreamId := ℕ
abbrev StreamId := ℕ
abbrev SubBatchId := ℕ
abbrev SeqIndex := ℕ

/-- What the tracker reads of the meta data of a frame. -/
structure NvDsFrameMeta where
  padIndex : UInt32
  surfaceIndex : UInt32
  surfaceType : ℕ
  frameNum : ℕ
  deriving DecidableEq, Repr

/-- What the tracker reads of its configuration. `numTransforms` comes from the
low-level library. -/
structure TrackerConfig where
  batchSize : ℕ
  trackingSurfType : ℕ
  trackingSurfTypeFromConfig : Bool
  inputTensorMeta : Bool
  numTransforms : ℕ
  /-- The source ids of each static sub-batch. -/
  subBatchesConfig : List (List ℕ)
  subBatchSizes : List ℕ
  dynamicSubBatching : Bool
  /-- The property `sub-batches` pushes the length of each list of source ids. -/
  sizes_eq : dynamicSubBatching = false → subBatchSizes = subBatchesConfig.map List.length
  deriving DecidableEq

namespace TrackerConfig

/-- `initTrackerContext`: the number of streams that the context of a sub-batch
(of the one batch without sub-batches) is made for. The frame list of its thread
has that many entries. -/
def maxStreams (cfg : TrackerConfig) (sbId : SubBatchId) : ℕ :=
  if cfg.subBatchSizes.length = 0 then cfg.batchSize else cfg.subBatchSizes.getD sbId 0

def maxSubBatchSize (cfg : TrackerConfig) : ℕ := cfg.subBatchSizes.foldl max 0

end TrackerConfig

/-! ### The ids of the streams -/

def getSurfaceStreamId (streamId surfaceId : UInt32) : SurfaceStreamId :=
  streamId.toNat <<< 32 ||| surfaceId.toNat

def getStreamId (ssId : SurfaceStreamId) : StreamId := ssId >>> 32

def NvDsFrameMeta.ssId (frame : NvDsFrameMeta) : SurfaceStreamId :=
  getSurfaceStreamId frame.padIndex frame.surfaceIndex

@[simp] theorem getStreamId_getSurfaceStreamId (streamId surfaceId : UInt32) :
    getStreamId (getSurfaceStreamId streamId surfaceId) = streamId.toNat := by
  rw [getStreamId, getSurfaceStreamId, Nat.shiftRight_or_distrib, Nat.shiftLeft_shiftRight,
    Nat.shiftRight_eq_div_pow, Nat.div_eq_of_lt surfaceId.toNat_lt, Nat.or_zero]

@[simp] theorem getStreamId_ssId (frame : NvDsFrameMeta) : getStreamId frame.ssId = frame.padIndex.toNat :=
  getStreamId_getSurfaceStreamId _ _

/-! ### The maps -/

structure StreamMaps where
  ssidSubBatchMap : TreeMap SurfaceStreamId SubBatchId
  padIndexSeqIndexMap : TreeMap ℕ SeqIndex
  /-- Per sub-batch, per sequence index: the stream and its pad. -/
  subBatchAllocationMap : TreeMap SubBatchId (TreeMap SeqIndex (SurfaceStreamId × ℕ))
  objectIdOffsetMap : TreeMap SurfaceStreamId ℕ

/-- No stream was seen. -/
def StreamMaps.empty : StreamMaps := ⟨∅, ∅, ∅, ∅⟩

/-- `init` without sub-batches: pad `i` has the sequence index `i`. -/
def identityPads (batchSize : ℕ) : TreeMap ℕ SeqIndex :=
  (List.range batchSize).foldl (fun m i => m.insert i i) ∅

/-- `init` with static sub-batches: the source ids of one of them. -/
def staticPadsOf (sources : List ℕ) (m : TreeMap ℕ SeqIndex) : Option (TreeMap ℕ SeqIndex) :=
  sources.zipIdx.foldlM (fun m e => if e.1 ∈ m then none else some (m.insert e.1 e.2)) m

/-- `init` with static sub-batches fails on a source id that occurs twice. -/
def staticPads (subBatches : List (List ℕ)) : Option (TreeMap ℕ SeqIndex) :=
  subBatches.foldlM (fun m sources => staticPadsOf sources m) ∅

/-- The maps after `init`. -/
def StreamMaps.init (cfg : TrackerConfig) : Option StreamMaps :=
  if cfg.subBatchSizes.length = 0 then
    some { empty with padIndexSeqIndexMap := identityPads cfg.batchSize }
  else if cfg.dynamicSubBatching then some empty
  else (staticPads cfg.subBatchesConfig).map fun pads => { empty with padIndexSeqIndexMap := pads }

namespace StreamMaps

/-- `m_SubBatchAllocationMap[sbId]`, an empty sub-batch when it is absent. -/
def subBatch (m : StreamMaps) (sbId : SubBatchId) : TreeMap SeqIndex (SurfaceStreamId × ℕ) :=
  m.subBatchAllocationMap.getD sbId ∅

/-- `m_PadIndexSeqIndexMap[padIndex]`: the sequence index used for a pad, 0 when
the pad is absent. -/
def seqIndex (m : StreamMaps) (padIndex : ℕ) : SeqIndex := m.padIndexSeqIndexMap.getD padIndex 0

/-- The first sequence index below the size of a sub-batch that is not in use. -/
def freeIndex (single : TreeMap SeqIndex (SurfaceStreamId × ℕ)) (size : ℕ) : Option SeqIndex :=
  (List.range size).find? fun seqIdx => seqIdx ∉ single

/-- Give a slot to a stream. -/
def allocate (m : StreamMaps) (sbId : SubBatchId) (seqIdx : SeqIndex) (ssId : SurfaceStreamId)
    (padIndex : ℕ) : StreamMaps :=
  { m with
    subBatchAllocationMap :=
      m.subBatchAllocationMap.insert sbId ((m.subBatch sbId).insert seqIdx (ssId, padIndex))
    ssidSubBatchMap := m.ssidSubBatchMap.insert ssId sbId
    padIndexSeqIndexMap := m.padIndexSeqIndexMap.insert padIndex seqIdx }

/-- The two loops of the dynamic `mapStreamToSubBatch`, over the pairs of a size
and a sub-batch: the first sub-batch below that size and below its own gets the
stream. An empty sub-batch is entered for each that is looked at. -/
def mapDynamic (cfg : TrackerConfig) (ssId : SurfaceStreamId) (padIndex : ℕ) :
    List (ℕ × SubBatchId) → StreamMaps → StreamMaps × Bool
  | [], m => (m, false)
  | (sbSizeCnt, sbId) :: rest, m =>
    let m := { m with subBatchAllocationMap := Table.touch m.subBatchAllocationMap sbId ∅ }
    let curSize := (m.subBatch sbId).size
    if curSize < sbSizeCnt ∧ curSize < cfg.subBatchSizes.getD sbId 0 then
      match freeIndex (m.subBatch sbId) (cfg.subBatchSizes.getD sbId 0) with
      | some seqIdx => (m.allocate sbId seqIdx ssId padIndex, true)
      | none => (m, false)
    else mapDynamic cfg ssId padIndex rest m

/-- What the two loops visit: for each size from 1 on every sub-batch. -/
def visits (cfg : TrackerConfig) : List (ℕ × SubBatchId) :=
  (List.range' 1 cfg.maxSubBatchSize).flatMap fun sbSizeCnt =>
    (List.range cfg.subBatchSizes.length).map fun sbId => (sbSizeCnt, sbId)

def mapStreamToSubBatch (cfg : TrackerConfig) (m : StreamMaps) (ssId : SurfaceStreamId)
    (padIndex : ℕ) : StreamMaps × Bool :=
  if cfg.dynamicSubBatching then mapDynamic cfg ssId padIndex (visits cfg) m
  else
    match cfg.subBatchesConfig.findIdx? fun sources => padIndex ∈ sources with
    | none => (m, false)
    | some sbId => ({ m with ssidSubBatchMap := m.ssidSubBatchMap.insert ssId sbId }, true)

/-- What `dispatchSubBatches` does for a frame: a stream is mapped when its
first frame arrives. -/
def mapFrame (cfg : TrackerConfig) (m : StreamMaps) (ssId : SurfaceStreamId) (padIndex : ℕ) :
    StreamMaps × Bool :=
  if ssId ∈ m.ssidSubBatchMap then (m, true) else m.mapStreamToSubBatch cfg ssId padIndex

/-- The effect of `objectIdMapping`: the first object of a stream sets its offset. -/
def objectIdMapping (m : StreamMaps) (objectId : ℕ) (ssId : SurfaceStreamId) : StreamMaps :=
  { m with objectIdOffsetMap := Table.touch m.objectIdOffsetMap ssId objectId }

/-! ### Removal -/

/-- The slot of a stream in its sub-batch is erased, and the entry of its pad,
which has to name the same sequence index. -/
def releaseSlot (m : StreamMaps) (ssId : SurfaceStreamId) (sbId : SubBatchId) : StreamMaps × Bool :=
  match m.subBatchAllocationMap[sbId]? with
  | none => (m, true)
  | some single =>
    match single.toList.find? fun e => e.2.1 = ssId with
    | none => (m, true)
    | some (seqIdxEntry, _, padIndexEntry) =>
      let single := single.erase seqIdxEntry
      let alloc := if single.size = 0 then m.subBatchAllocationMap.erase sbId
        else m.subBatchAllocationMap.insert sbId single
      let pads := Table.touch m.padIndexSeqIndexMap padIndexEntry 0
      if seqIdxEntry ≠ pads.getD padIndexEntry 0 then
        ({ m with subBatchAllocationMap := alloc, padIndexSeqIndexMap := pads }, false)
      else
        ({ m with
           subBatchAllocationMap := alloc
           padIndexSeqIndexMap := pads.erase padIndexEntry }, true)

/-- `removeSource` on one stream: the sub-batch whose thread gets the request to
remove it, or `none` where `removeSource` returns false. -/
def removeStream (cfg : TrackerConfig) (m : StreamMaps) (ssId : SurfaceStreamId) :
    StreamMaps × Option SubBatchId :=
  match m.ssidSubBatchMap[ssId]? with
  | none => (m, none)
  | some sbId =>
    let r := releaseSlot { m with ssidSubBatchMap := m.ssidSubBatchMap.erase ssId } ssId sbId
    (r.1, if r.2 ∧ sbId < cfg.subBatchSizes.length then some sbId else none)

/-- What `removeSource` leaves: the maps, the requests for the threads, and its
result. -/
structure Removal where
  maps : StreamMaps
  requests : List (SubBatchId × SurfaceStreamId)
  ok : Bool

/-- The loop of `removeSource` over the streams of the source. -/
def removeStreams (cfg : TrackerConfig) : StreamMaps → List SurfaceStreamId → Removal
  | m, [] => ⟨m, [], true⟩
  | m, ssId :: rest =>
    match m.removeStream cfg ssId with
    | (m, none) => ⟨m, [], false⟩
    | (m, some sbId) =>
      let r := removeStreams cfg m rest
      { r with requests := (sbId, ssId) :: r.requests }

/-- The streams of a source that have an object id offset. -/
def offsetStreams (m : StreamMaps) (sourceId : StreamId) : List SurfaceStreamId :=
  m.objectIdOffsetMap.keys.filter fun ssId => getStreamId ssId = sourceId

/-- The last loop of `removeSource`. -/
def eraseOffsets (m : StreamMaps) (sourceId : StreamId) : StreamMaps :=
  { m with objectIdOffsetMap := m.objectIdOffsetMap.filter fun ssId _ => getStreamId ssId ≠ sourceId }

def removeSource (cfg : TrackerConfig) (m : StreamMaps) (sourceId : StreamId)
    (removeObjectIdMapping : Bool) : Removal :=
  let r := if cfg.subBatchSizes.length = 0 then ⟨m, [], true⟩
    else removeStreams cfg m (m.offsetStreams sourceId)
  if r.ok ∧ removeObjectIdMapping then { r with maps := r.maps.eraseOffsets sourceId } else r

end StreamMaps

/-! ### Frames -/

/-- A frame for the low-level library. -/
structure NvMOTFrame where
  streamID : SurfaceStreamId
  seqIndex : SeqIndex
  frameNum : ℕ
  deriving DecidableEq, Repr

abbrev FrameMap := TreeMap SurfaceStreamId NvDsFrameMeta

namespace StreamMaps

/-- `fillMOTFrame` reads the sequence index by `operator[]`, which enters 0 for
a pad that is absent. -/
def fillMOTFrame (m : StreamMaps) (ssId : SurfaceStreamId) (frame : NvDsFrameMeta) :
    StreamMaps × NvMOTFrame :=
  ({ m with padIndexSeqIndexMap := Table.touch m.padIndexSeqIndexMap frame.padIndex.toNat 0 },
   ⟨ssId, m.seqIndex frame.padIndex.toNat, frame.frameNum⟩)

/-- The frames of one call of the low-level library, in the order of the map. -/
def fillMOTFrames : StreamMaps → List (SurfaceStreamId × NvDsFrameMeta) → StreamMaps × List NvMOTFrame
  | m, [] => (m, [])
  | m, (ssId, frame) :: rest =>
    let r := m.fillMOTFrame ssId frame
    let rs := fillMOTFrames r.1 rest
    (rs.1, r.2 :: rs.2)

end StreamMaps

/-- The frames that `queueFrames` does not skip. -/
def TrackerConfig.selects (cfg : TrackerConfig) (frame : Option NvDsFrameMeta) : Option NvDsFrameMeta :=
  frame.filter fun f =>
    !(f.surfaceType ≠ 0 && cfg.trackingSurfTypeFromConfig && f.surfaceType ≠ cfg.trackingSurfType)

/-- `queueFrames` on one frame: the `k`-th frame of a stream goes to the `k`-th
list. -/
def queueFrame (st : TreeMap SurfaceStreamId ℕ × List FrameMap) (frame : NvDsFrameMeta) :
    TreeMap SurfaceStreamId ℕ × List FrameMap :=
  let count := st.1.getD frame.ssId 0
  let batchList := st.2 ++ List.replicate (count + 1 - st.2.length) ∅
  (st.1.insert frame.ssId (count + 1), batchList.modify count fun frames => frames.insert frame.ssId frame)

def queueFrames (cfg : TrackerConfig) (frames : List (Option NvDsFrameMeta)) : List FrameMap :=
  ((frames.filterMap cfg.selects).foldl queueFrame (∅, [])).2

/-! ### Dispatch -/

/-- A request for the thread of a sub-batch, with the frames of one list that
belong to it. -/
abbrev SubBatchFrames := SubBatchId × FrameMap

namespace StreamMaps

/-- The frames of one list are put into their sub-batches; `none` where a stream
finds no sub-batch and `dispatchSubBatches` returns false. -/
def splitFrames (cfg : TrackerConfig) : StreamMaps → List (SurfaceStreamId × NvDsFrameMeta) →
    List FrameMap → StreamMaps × Option (List FrameMap)
  | m, [], subBatchList => (m, some subBatchList)
  | m, (ssId, frame) :: rest, subBatchList =>
    let r := m.mapFrame cfg ssId frame.padIndex.toNat
    if r.2 then
      splitFrames cfg r.1 rest
        (subBatchList.modify (r.1.ssidSubBatchMap.getD ssId 0) fun frames => frames.insert ssId frame)
    else (r.1, none)

/-- The requests of one list: its sub-batches that got a frame, in order. -/
def requestsOf (subBatchList : List FrameMap) : List SubBatchFrames :=
  subBatchList.zipIdx.filterMap fun e => if e.1.size = 0 then none else some (e.2, e.1)

/-- What `dispatchSubBatches` does with the lists of frames: the maps, the
requests pushed, and its result. -/
structure Dispatch where
  maps : StreamMaps
  requests : List SubBatchFrames
  ok : Bool

def dispatch (cfg : TrackerConfig) : StreamMaps → List FrameMap → Dispatch
  | m, [] => ⟨m, [], true⟩
  | m, frameMap :: rest =>
    match m.splitFrames cfg frameMap.toList (List.replicate cfg.subBatchSizes.length ∅) with
    | (m, none) => ⟨m, [], false⟩
    | (m, some subBatchList) =>
      let r := dispatch cfg m rest
      { r with requests := requestsOf subBatchList ++ r.requests }

end StreamMaps
end Tracker
end DeepStream
