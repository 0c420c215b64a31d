/-
# The threads of the tracker

`NvTrackerProc` as a system of threads: the caller of `submitInput`, the thread
of `processBatch` (without sub-batches) or one thread of `processSubBatch` for
each sub-batch, the callers of `flushReqs` and the output loop, which takes from
`m_CompletionQueue`. A step is one section under a mutex, or what a thread does
between two of them; a section that would dereference a null pointer has no
result. What the low-level library returns is chosen with the step, and it may
report an error at any time.

The buffers are named by the number of their `submitInput` call. The last fields
of `Sys` are not in the source: they record what happened.
-/
import DeepStream.Lib.Word
import DeepStream.Tracker.Slots

namespace DeepStream
namespace Tracker

open Std

/-- The input of `submitInput`: the buffer and the frames of its batch. -/
structure InputParams where
  pPreservedData : ℕ
  frames : List (Option NvDsFrameMeta)
  deriving DecidableEq

/-- The surface for the low-level library: a buffer of the pool, or the one made
from the tensor meta of the preprocess plugin. -/
inductive ConvBuf where
  | pool (buffer : ℕ)
  | preprocess
  deriving DecidableEq

structure ProcParams where
  input : InputParams
  pConvBuf : Option ConvBuf
  batchId : BatchId
  deriving DecidableEq

/-- The number of the call that submitted the batch. -/
def ProcParams.call (p : ProcParams) : ℕ := p.input.pPreservedData

/-- A request for the thread of a sub-batch. -/
inductive DispatchReq where
  | frames (procParams : ProcParams) (subBatchFrameMap : FrameMap)
  | removeSource (ssId : SurfaceStreamId)

def DispatchReq.params? : DispatchReq → Option ProcParams
  | .frames p _ => some p
  | .removeSource _ => none

/-- An entry of `m_CompletionQueue`: a batch, or the event marker of a
`flushReqs`, with the number of batches accepted when that was called. -/
inductive Completion where
  | batch (input : InputParams)
  | eventMarker (before : ℕ)
  deriving DecidableEq

def Completion.call? : Completion → Option ℕ
  | .batch input => some input.pPreservedData
  | .eventMarker _ => none

/-- An entry of `m_PendingBatch`: the sub-batches that still work on the batch,
and the call it was made for. -/
structure PendingBatch where
  waiting : List SubBatchId
  owner : ℕ
  deriving DecidableEq

/-- A call of `m_TrackerLibProcess` with the context of a sub-batch. -/
structure LibCall where
  sbId : SubBatchId
  frames : List NvMOTFrame
  deriving DecidableEq, Repr

/-- `convertBatchAsync`: converted; the session parameters are refused and the
buffer is lost; the transform fails and the buffer goes back. -/
inductive ConvertResult where
  | ok
  | sessionError
  | transformError
  deriving DecidableEq

/-- Where the caller of `submitInput` is. -/
inductive SubmitPc where
  | idle
  | converted (p : ProcParams)
  | registered (p : ProcParams)

/-- Where `processBatch` is. -/
inductive BatchPc where
  | idle
  | popped (p : ProcParams)
  | processed (p : ProcParams)
  | erased (p : ProcParams)
  | pushed (p : ProcParams)

/-- Where `processSubBatch` is. -/
inductive WorkerPc where
  | idle
  | popped (req : DispatchReq)
  | processed (p : ProcParams)

/-- The objects that the library tracks, with their stream. -/
abbrev TrackedObjs := List (SurfaceStreamId × ℕ)

structure Sys where
  maps : StreamMaps
  trackerLibError : Bool
  freeQueue : List ℕ
  procQueue : List ProcParams
  pendingBatch : TreeMap BatchId PendingBatch
  batchId : BatchId
  convBufComplete : TreeMap BatchId Bool
  completionQueue : List Completion
  /-- `m_DispatchMap[sbId].reqQueue`; its keys are the sub-batches configured. -/
  reqQueue : SubBatchId → List DispatchReq
  submit : SubmitPc
  batch : BatchPc
  worker : SubBatchId → WorkerPc
  /-- The callers of `flushReqs` that wait for the batches, and those about to
  push their marker, each with the number of batches accepted at its call. -/
  polling : List ℕ
  cleared : List ℕ
  calls : ℕ
  accepted : List InputParams
  /-- What the output loop took from the queue. -/
  delivered : List Completion
  /-- The calls whose convert buffer was returned or deleted. -/
  returned : List ℕ
  libCalls : List LibCall

inductive Action where
  | submitInput (frames : List (Option NvDsFrameMeta)) (convert : ConvertResult)
  | submitNext
  | processBatch (objs : List TrackedObjs)
  | processSubBatch (sbId : SubBatchId) (objs : TrackedObjs)
  | flushReqs
  | flushCleared (i : ℕ)
  | flushPush (i : ℕ)
  | waitForCompletion
  | removeSource (sourceId : StreamId) (removeObjectIdMapping : Bool)
  | trackerLibError

namespace StreamMaps

/-- `updateBatchMeta`: the objects tracked in the streams of the call get ids. -/
def updateBatchMeta (m : StreamMaps) (frameMap : FrameMap) (objs : TrackedObjs) : StreamMaps :=
  (objs.filter fun o => o.1 ∈ frameMap).foldl (fun m o => m.objectIdMapping o.2 o.1) m

/-- One call of the low-level library: its frames are filled in, and its output
is read. -/
def libProcess (m : StreamMaps) (frameMap : FrameMap) (objs : TrackedObjs) :
    StreamMaps × List NvMOTFrame :=
  let r := m.fillMOTFrames frameMap.toList
  (r.1.updateBatchMeta frameMap objs, r.2)

/-- The calls of `processBatch`, one for each list of frames. -/
def libProcessLists : StreamMaps → List FrameMap → List TrackedObjs → StreamMaps × List LibCall
  | m, [], _ => (m, [])
  | m, frameMap :: rest, objs =>
    let r := m.libProcess frameMap (objs.headD [])
    let rs := libProcessLists r.1 rest objs.tail
    (rs.1, ⟨0, r.2⟩ :: rs.2)

end StreamMaps

namespace Sys

/-- After `init`: the pool has two buffers when the library wants surfaces
converted. -/
def init (cfg : TrackerConfig) : Option Sys :=
  (StreamMaps.init cfg).map fun maps =>
    { maps := maps
      trackerLibError := false
      freeQueue := if cfg.numTransforms > 0 ∧ ¬ cfg.inputTensorMeta then [0, 1] else []
      procQueue := []
      pendingBatch := ∅
      batchId := 0
      convBufComplete := ∅
      completionQueue := []
      reqQueue := fun _ => []
      submit := .idle
      batch := .idle
      worker := fun _ => .idle
      polling := []
      cleared := []
      calls := 0
      accepted := []
      delivered := []
      returned := []
      libCalls := [] }

def Started (cfg : TrackerConfig) (s : Sys) : Prop := init cfg = some s

/-- `submitInput` returns false. -/
def reject (s : Sys) : Sys := { s with submit := .idle, calls := s.calls + 1 }

/-- The batch got a surface, or needs none. -/
def convert (s : Sys) (frames : List (Option NvDsFrameMeta)) (pConvBuf : Option ConvBuf) : Sys :=
  { s with submit := .converted ⟨⟨s.calls, frames⟩, pConvBuf, 0⟩ }

/-- `submitInput` up to the conversion. It waits for a buffer of the pool. -/
def submitInput (cfg : TrackerConfig) (s : Sys) (frames : List (Option NvDsFrameMeta))
    (result : ConvertResult) : Option Sys :=
  match s.submit with
  | .idle =>
    if s.trackerLibError then some s.reject
    else if cfg.numTransforms = 0 then some (s.convert frames none)
    else if cfg.inputTensorMeta then
      match result with
      | .ok => some (s.convert frames (some .preprocess))
      | _ => some s.reject
    else
      match s.freeQueue, result with
      | [], _ => none
      | buffer :: rest, .ok => some ({ s with freeQueue := rest }.convert frames (some (.pool buffer)))
      | _ :: rest, .sessionError => some { s with freeQueue := rest }.reject
      | buffer :: rest, .transformError => some { s with freeQueue := rest ++ [buffer] }.reject
  | _ => none

/-- Without sub-batches: the batch becomes pending. -/
def register (s : Sys) (p : ProcParams) : Sys :=
  if s.batchId ∈ s.pendingBatch then s.reject
  else
    { s with
      submit := .registered { p with batchId := s.batchId }
      pendingBatch := s.pendingBatch.insert s.batchId ⟨[], p.call⟩
      batchId := wrapAdd 32 s.batchId 1
      calls := s.calls + 1 }

/-- The requests of a batch for one sub-batch. -/
def requestsFor (p : ProcParams) (requests : List SubBatchFrames) (sbId : SubBatchId) : List DispatchReq :=
  (requests.filter fun r => r.1 = sbId).map fun r => .frames p r.2

/-- `dispatchSubBatches`, which holds `m_PendingBatchLock` throughout. -/
def dispatchSubBatches (cfg : TrackerConfig) (s : Sys) (p : ProcParams) : Sys :=
  if s.batchId ∈ s.pendingBatch then s.reject
  else
    let d := s.maps.dispatch cfg (queueFrames cfg p.input.frames)
    let p := { p with batchId := s.batchId }
    let s := { s with
      maps := d.maps
      pendingBatch := s.pendingBatch.insert s.batchId ⟨d.requests.map Prod.fst, p.call⟩
      convBufComplete := s.convBufComplete.insert s.batchId false
      reqQueue := fun sbId => s.reqQueue sbId ++ requestsFor p d.requests sbId }
    if d.ok then
      { s with
        submit := .idle
        batchId := wrapAdd 32 s.batchId 1
        calls := s.calls + 1
        accepted := s.accepted ++ [p.input] }
    else s.reject

/-- `submitInput` from the conversion on. -/
def submitNext (cfg : TrackerConfig) (s : Sys) : Option Sys :=
  match s.submit with
  | .idle => none
  | .converted p =>
    if cfg.subBatchSizes.length = 0 then some (s.register p) else some (s.dispatchSubBatches cfg p)
  | .registered p =>
    some { s with submit := .idle, procQueue := s.procQueue ++ [p], accepted := s.accepted ++ [p.input] }

/-- The convert buffer goes back to the pool, or is deleted; the latter
dereferences it. -/
def returnBuffer (cfg : TrackerConfig) (s : Sys) (p : ProcParams) : Option Sys :=
  if cfg.inputTensorMeta ∧ p.pConvBuf = none then none
  else
    some { s with
      freeQueue := s.freeQueue ++
        match p.pConvBuf with
        | some (.pool buffer) => [buffer]
        | _ => []
      returned := s.returned ++ [p.call] }

/-- The next section of `processBatch`. -/
def processBatch (cfg : TrackerConfig) (s : Sys) (objs : List TrackedObjs) : Option Sys :=
  match s.batch with
  | .idle =>
    match s.procQueue with
    | [] => none
    | p :: rest => some { s with batch := .popped p, procQueue := rest }
  | .popped p =>
    if s.trackerLibError then some { s with batch := .processed p }
    else
      let r := s.maps.libProcessLists (queueFrames cfg p.input.frames) objs
      some { s with batch := .processed p, maps := r.1, libCalls := s.libCalls ++ r.2 }
  | .processed p =>
    if p.batchId ∈ s.pendingBatch then
      some { s with batch := .erased p, pendingBatch := s.pendingBatch.erase p.batchId }
    else some { s with batch := .erased p, trackerLibError := true }
  | .erased p =>
    some { s with batch := .pushed p, completionQueue := s.completionQueue ++ [.batch p.input] }
  | .pushed p => { s with batch := .idle }.returnBuffer cfg p

/-- The section of `processSubBatch` that marks a request complete. The last
sub-batch of a batch returns the convert buffer and completes it. -/
def completeReq (cfg : TrackerConfig) (s : Sys) (sbId : SubBatchId) (p : ProcParams) : Option Sys :=
  match s.pendingBatch[p.batchId]? with
  | none => some { s with trackerLibError := true }
  | some pending =>
    if sbId ∈ pending.waiting then
      let waiting := pending.waiting.erase sbId
      if waiting = [] then
        (s.returnBuffer cfg p).map fun s =>
          { s with
            pendingBatch := s.pendingBatch.erase p.batchId
            convBufComplete := s.convBufComplete.erase p.batchId
            completionQueue := s.completionQueue ++ [.batch p.input] }
      else
        some { s with
          pendingBatch := s.pendingBatch.insert p.batchId { pending with waiting := waiting } }
    else some { s with trackerLibError := true }

/-- `processSubBatch` on a request with frames, up to the output of the library. -/
def processReq (cfg : TrackerConfig) (s : Sys) (sbId : SubBatchId) (p : ProcParams) (frameMap : FrameMap)
    (objs : TrackedObjs) : Sys :=
  if s.trackerLibError then s
  else
    let r := s.maps.libProcess frameMap objs
    { s with
      maps := r.1
      libCalls := s.libCalls ++ [⟨sbId, r.2⟩]
      trackerLibError := !cfg.inputTensorMeta && p.batchId ∉ s.convBufComplete
      convBufComplete := if !cfg.inputTensorMeta && p.batchId ∈ s.convBufComplete then
        s.convBufComplete.insert p.batchId true else s.convBufComplete }

def setWorker (s : Sys) (sbId : SubBatchId) (pc : WorkerPc) : Sys :=
  { s with worker := Function.update s.worker sbId pc }

/-- The next section of `processSubBatch`. -/
def processSubBatch (cfg : TrackerConfig) (s : Sys) (sbId : SubBatchId) (objs : TrackedObjs) : Option Sys :=
  match s.worker sbId with
  | .idle =>
    match s.reqQueue sbId with
    | [] => none
    | req :: rest =>
      some ({ s with reqQueue := Function.update s.reqQueue sbId rest }.setWorker sbId (.popped req))
  | .popped (.removeSource _) => some (s.setWorker sbId .idle)
  | .popped (.frames p frameMap) => some ((s.processReq cfg sbId p frameMap objs).setWorker sbId (.processed p))
  | .processed p => (s.completeReq cfg sbId p).map fun s => s.setWorker sbId .idle

/-- The requests to remove streams go to the threads of their sub-batches. -/
def removeSource (cfg : TrackerConfig) (s : Sys) (sourceId : StreamId) (removeObjectIdMapping : Bool) : Sys :=
  let r := s.maps.removeSource cfg sourceId removeObjectIdMapping
  { s with
    maps := r.maps
    reqQueue := fun sbId => s.reqQueue sbId ++
      (r.requests.filter fun e => e.1 = sbId).map fun e => .removeSource e.2 }

def step (cfg : TrackerConfig) (s : Sys) : Action → Option Sys
  | .submitInput frames result => s.submitInput cfg frames result
  | .submitNext => s.submitNext cfg
  | .processBatch objs => if cfg.subBatchSizes.length = 0 then s.processBatch cfg objs else none
  | .processSubBatch sbId objs =>
    if sbId < cfg.subBatchSizes.length then s.processSubBatch cfg sbId objs else none
  | .flushReqs => some { s with polling := s.polling ++ [s.accepted.length] }
  | .flushCleared i =>
    match s.polling[i]? with
    | none => none
    | some before =>
      if s.pendingBatch.isEmpty then
        some { s with polling := s.polling.eraseIdx i, cleared := s.cleared ++ [before] }
      else none
  | .flushPush i =>
    match s.cleared[i]? with
    | none => none
    | some before =>
      some { s with
        cleared := s.cleared.eraseIdx i
        completionQueue := s.completionQueue ++ [.eventMarker before] }
  | .waitForCompletion =>
    match s.completionQueue with
    | [] => none
    | entry :: rest => some { s with completionQueue := rest, delivered := s.delivered ++ [entry] }
  | .removeSource sourceId flag => some (s.removeSource cfg sourceId flag)
  | .trackerLibError => some { s with trackerLibError := true }

/-! ### What happened -/

/-- Everything that was put on `m_CompletionQueue`, in order. -/
def history (s : Sys) : List Completion := s.delivered ++ s.completionQueue

/-- The batches among it, by their calls. -/
def completed (s : Sys) : List ℕ := s.history.filterMap Completion.call?

/-- The calls of the batches that were accepted, in order. -/
def acceptedCalls (s : Sys) : List ℕ := s.accepted.map InputParams.pPreservedData

/-- The request with frames that the thread of a sub-batch works on. -/
def currentJob : WorkerPc → List ProcParams
  | .idle | .popped (.removeSource _) => []
  | .popped (.frames p _) | .processed p => [p]

/-- What the thread of a sub-batch has still to complete, in order. -/
def jobs (s : Sys) (sbId : SubBatchId) : List ProcParams :=
  currentJob (s.worker sbId) ++ (s.reqQueue sbId).filterMap DispatchReq.params?

end Sys
end Tracker
end DeepStream
