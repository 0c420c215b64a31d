/-
# The threads of gst-nvinfer

The streaming thread takes buffers and events, the input-queue thread hands
batches to the context, the output thread takes its outputs, attaches them and
pushes the buffers, and a fourth thread loads models. They share two queues under
`process_lock`; a step is one section under the lock, or what a thread does
between two of them. A section that would dereference a null pointer has no
result. What the pool, the conversion and the context answer, and which events
and models come, is chosen with the step.

A buffer is named by the number of its `submit_input_buffer` call, a context and
its init params by the number of the context. An entry of the process queue is
kept with the context that took its input. `queued`, `finished`, `refused` and
the fields of `Log` are not in the source: they record what happened.
-/
import DeepStream.NvInfer.Objects
import DeepStream.Lib.Run

namespace DeepStream
namespace NvInfer

open Infer (CFloat)

/-! ### Batches and queues -/

structure GstNvInferFrame where
  item : Item
  frameNum : ℕ
  history : Option ℕ
  deriving DecidableEq, Repr

structure GstNvInferBatch where
  frames : List GstNvInferFrame := []
  inbuf : Option ℕ := none
  pushBuffer : Bool := false
  eventMarker : Bool := false
  objsPendingMetaAttach : List (ℕ × Item) := []
  deriving DecidableEq, Repr

namespace GstNvInferBatch

def marker : GstNvInferBatch := { eventMarker := true }

def push (buffer : ℕ) : GstNvInferBatch := { inbuf := some buffer, pushBuffer := true }

/-- The input-queue thread passes the batch on without queueing any input. -/
def passed (b : GstNvInferBatch) : Bool := b.pushBuffer || b.eventMarker || b.frames = []

def addFrame (b : GstNvInferBatch) (f : GstNvInferFrame) : GstNvInferBatch := { b with frames := b.frames ++ [f] }

def addPending (b : GstNvInferBatch) (h : ℕ) (item : Item) : GstNvInferBatch :=
  { b with objsPendingMetaAttach := b.objsPendingMetaAttach ++ [(h, item)] }

end GstNvInferBatch

inductive InputLoop where
  | waiting
  | queueing (batch : GstNvInferBatch) (ctx : ℕ)
  deriving DecidableEq, Repr

/-- The context is read after the lock was released. -/
inductive OutputLoop where
  | waiting
  | pushing (batch : GstNvInferBatch)
  | dequeuing (batch : GstNvInferBatch) (queuedTo : Option ℕ) (ctx : Option ℕ)
  deriving DecidableEq, Repr

def InputLoop.held : InputLoop → List GstNvInferBatch
  | .waiting => []
  | .queueing b _ => [b]

def OutputLoop.held : OutputLoop → List GstNvInferBatch
  | .waiting => []
  | .pushing b => [b]
  | .dequeuing b _ _ => [b]

structure Queues where
  inputQueue : List GstNvInferBatch
  processQueue : List (GstNvInferBatch × Option ℕ)
  inputLoop : InputLoop
  outputLoop : OutputLoop
  queued : List GstNvInferBatch
  finished : List GstNvInferBatch
  refused : List GstNvInferBatch
  deriving DecidableEq, Repr

inductive NvDsInferStatus where
  | success | memError | failed
  deriving DecidableEq, Repr

namespace Queues

variable (q : Queues)

/-- The batches on their way, the one that leaves next first. -/
def line : List GstNvInferBatch :=
  q.outputLoop.held ++ q.processQueue.map (·.1) ++ q.inputLoop.held ++ q.inputQueue

def pushInput (b : GstNvInferBatch) : Queues :=
  { q with inputQueue := q.inputQueue ++ [b], queued := q.queued ++ [b] }

def pushProcess (b : GstNvInferBatch) (ctx : Option ℕ) : Queues :=
  { q with processQueue := q.processQueue ++ [(b, ctx)], queued := q.queued ++ [b] }

/-- The first section of the input-queue thread. -/
def inputPop (ctx : ℕ) : Option Queues :=
  match q.inputLoop, q.inputQueue with
  | .waiting, b :: rest =>
    if b.passed then some { q with inputQueue := rest, processQueue := q.processQueue ++ [(b, none)] }
    else some { q with inputQueue := rest, inputLoop := .queueing b ctx }
  | _, _ => none

/-- `queueInputBatch` has returned: a batch that was not taken is dropped. -/
def inputQueued (status : NvDsInferStatus) : Option Queues :=
  match q.inputLoop with
  | .waiting => none
  | .queueing b ctx =>
    if status = .success then
      some { q with inputLoop := .waiting, processQueue := q.processQueue ++ [(b, some ctx)] }
    else some { q with inputLoop := .waiting, refused := q.refused ++ [b] }

/-- The output thread is through with the batch. -/
def finish (b : GstNvInferBatch) : Queues :=
  { q with outputLoop := .waiting, finished := q.finished ++ [b] }

/-- Waiting for both queues to be empty, the input queue first: `none` means to
go on waiting, otherwise whether the wait is over. -/
def emptied (processOnly : Bool) : Option Bool :=
  if processOnly = false ∧ q.inputQueue ≠ [] then none
  else if q.processQueue = [] then some true
  else if processOnly then none
  else some false

end Queues

/-! ### The element -/

/-- An event on the sink pad, with the source or the interval it carries. -/
inductive SinkEvent where
  | padAdded (source : ℕ)
  | padDeleted (source : ℕ)
  | streamEos (source : ℕ)
  | inferIntervalUpdate (interval : ℕ)
  | eos
  | tag
  | other (serialized : Bool)
  deriving DecidableEq, Repr

/-- Serialized, and not ignored. -/
def SinkEvent.isSerialized : SinkEvent → Bool
  | .tag => false
  | .other serialized => serialized
  | _ => true

/-- What the loops of `gst_nvinfer_process_objects` come to next. -/
inductive Work (R : Type*) where
  | frame (f : NvDsFrameMeta R)
  | object (item : Item) (f : NvDsFrameMeta R) (obj : NvDsObjectMeta R)

def workOf {R : Type*} (buffer : ℕ) (buf : GstBuffer R) : List (Work R) :=
  buf.zipIdx.flatMap fun e => .frame e.1 ::
    e.1.objMetaList.zipIdx.map fun o => .object ⟨buffer, e.2, some o.2⟩ e.1 o.1

/-- Where the streaming thread is. -/
inductive Submit (R : Type*) where
  | idle
  | flushing (buf : GstBuffer R) (ctx : ℕ) (processOnly : Bool)
  | fullFrame (buffer : ℕ) (rest : List (NvDsFrameMeta R × ℕ)) (batch : Option GstNvInferBatch)
  | objects (buffer : ℕ) (rest : List (Work R)) (batch : Option GstNvInferBatch)
  | tensors (buffer : ℕ)
  | pushing (buffer : ℕ)
  | inEvent (e : SinkEvent) (processOnly : Bool)

/-- The batch that is being filled. -/
def Submit.batch {R : Type*} : Submit R → List GstNvInferBatch
  | .fullFrame _ _ b => b.toList
  | .objects _ _ b => b.toList
  | _ => []

/-- `DsNvInferImpl`, and the pointer to the init params that the output loop took
when it started. -/
structure DsNvInferImpl where
  inferCtx : ℕ
  initParams : ℕ
  nextContextReplacement : Option ℕ
  loading : Bool
  contexts : ℕ
  outputLoopParams : ℕ
  deriving DecidableEq, Repr

/-- What was decided for an item. -/
inductive Decision where
  | skip | defer | infer
  deriving DecidableEq, Repr

/-- A batch whose output was attached: the context that took it, the one it was
dequeued from and will be released to, the init params that say of which type the
network is, and those that the threshold was read from. -/
structure ContextUse where
  queuedTo : Option ℕ
  dequeuedFrom : ℕ
  typeParams : ℕ
  thresholdParams : Option ℕ
  deriving DecidableEq, Repr

structure Log (R : Type*) where
  buffers : List (GstBuffer R)
  decisions : List (Item × Decision)
  outputs : List Item
  attached : List (Item × GstNvInferObjectInfo)
  completed : List ℕ
  pushed : List ℕ
  uses : List ContextUse

structure GstNvInfer (R : Type*) where
  cfg : Settings
  queues : Queues
  impl : DsNvInferImpl
  tracked : ObjectHistories R
  submit : Submit R
  interval : ℕ
  intervalCounter : ℕ
  currentBatchNum : ℕ
  lastMapCleanupFrameNum : ℕ
  log : Log R

inductive Action (R : Type*) where
  | submitInputBuffer (buf : GstBuffer R)
  | flushed
  | processFrame (ok : Bool)
  | processWork (ok : Bool)
  | pushBatch (ok : Bool)
  | endObjects
  | tensorBatch (frames : List (Item × ℕ)) (status : NvDsInferStatus)
  | endTensors (ok : Bool)
  | pushBuffer
  | sinkEvent (e : SinkEvent)
  | eventFlushed
  | inputPop
  | inputQueued (status : NvDsInferStatus)
  | outputPop
  | outputPush
  | outputContext
  | outputDequeued (status : NvDsInferStatus) (outputs : List GstNvInferObjectInfo)
  | loadModel
  | loadFailed
  | triggerContextReplace

variable {R : Type*}

namespace GstNvInfer

/-! ### The streaming thread: buffers -/

section Submission

variable (s : GstNvInfer R)

/-- Markers and push batches go to the first queue that has a thread. -/
def enqueue (b : GstNvInferBatch) : Queues :=
  if s.cfg.inputTensorFromMeta then s.queues.pushProcess b none else s.queues.pushInput b

def logDecision (item : Item) (d : Decision) : Log R := { s.log with decisions := s.log.decisions ++ [(item, d)] }

/-- After `ensureReplaceNextContext`: the buffer gets its number and is dispatched.
The modulus of the interval counter must not be 0. -/
def beginBuffer (buf : GstBuffer R) : Option (GstNvInfer R) :=
  let buffer := s.log.buffers.length
  let s := { s with
    currentBatchNum := wrapAdd 64 s.currentBatchNum 1
    log := { s.log with buffers := s.log.buffers ++ [buf] } }
  if s.cfg.inputTensorFromMeta then some { s with submit := .tensors buffer }
  else if s.cfg.processFullFrame then
    let period := wrapAdd 32 s.interval 1
    if period = 0 then none
    else
      let skip := s.intervalCounter % period > 0
      let s := { s with intervalCounter := wrapAdd 32 s.intervalCounter 1 }
      if skip then some { s with
        submit := .pushing buffer
        log := { s.log with
          decisions := s.log.decisions ++ buf.zipIdx.map fun e => (⟨buffer, e.2, none⟩, .skip) } }
      else some { s with submit := .fullFrame buffer buf.zipIdx none }
  else some { s with submit := .objects buffer (workOf buffer buf) none }

/-- `ensureReplaceNextContext` up to the wait of `flushDataUnlock`, whose marker
always goes to the input queue. -/
def ensureReplaceNextContext (buf : GstBuffer R) : Option (GstNvInfer R) :=
  match s.impl.nextContextReplacement with
  | none => s.beginBuffer buf
  | some ctx => some { s with
    impl := { s.impl with nextContextReplacement := none }
    queues := s.queues.pushInput .marker
    submit := .flushing buf ctx false }

/-- The end of `flushDataUnlock`, and `resetContextUnlock`. -/
def resetContext (buf : GstBuffer R) (ctx : ℕ) : Option (GstNvInfer R) :=
  { s with
    tracked := s.tracked.clearAll
    impl := { s.impl with inferCtx := ctx, initParams := ctx } }.beginBuffer buf

def flushed (buf : GstBuffer R) (ctx : ℕ) (processOnly : Bool) : Option (GstNvInfer R) :=
  (s.queues.emptied processOnly).bind fun ended =>
    if ended then s.resetContext buf ctx else some { s with submit := .flushing buf ctx true }

/-- One round of the loop of `gst_nvinfer_process_full_frame`. -/
def processFrame (ok : Bool) (buffer : ℕ) (f : NvDsFrameMeta R) (i : ℕ) (rest : List (NvDsFrameMeta R × ℕ))
    (batch : Option GstNvInferBatch) : GstNvInfer R :=
  if ok then
    let item : Item := ⟨buffer, i, none⟩
    let batch := (batch.getD { inbuf := some buffer }).addFrame ⟨item, f.frameNum, none⟩
    let s := { s with log := s.logDecision item .infer }
    if batch.frames.length = s.cfg.maxBatchSize ∨ rest = [] then
      { s with queues := s.queues.pushInput batch, submit := .fullFrame buffer rest none }
    else { s with submit := .fullFrame buffer rest (some batch) }
  else { s with submit := .idle }

/-- The object is not inferred and its history is left to the output thread. -/
def deferObject (ok : Bool) (buffer : ℕ) (item : Item) (frameNum h : ℕ) (rest : List (Work R))
    (batch : Option GstNvInferBatch) : GstNvInfer R :=
  if ok ∨ batch.isSome then
    { s with
      tracked := s.tracked.modify h fun hist => { hist with lastAccessedFrameNum := frameNum }
      log := s.logDecision item .defer
      submit := .objects buffer rest (some ((batch.getD { inbuf := some buffer }).addPending h item)) }
  else { s with submit := .idle }

/-- The history is marked, then the object is converted and added. -/
def inferObject [CFloat R] (ok : Bool) (buffer : ℕ) (item : Item) (f : NvDsFrameMeta R) (obj : NvDsObjectMeta R)
    (history : Option ℕ) (rest : List (Work R)) (batch : Option GstNvInferBatch) : GstNvInfer R :=
  let (history, tracked) :=
    if obj.objectId = untrackedObjectId then (none, s.tracked)
    else match history with
      | some h => (some h, s.tracked)
      | none => ((s.tracked.create f.padIndex obj.objectId).map some id)
  let tracked := match history with
    | none => tracked
    | some h => tracked.modify h fun hist => { hist with
      underInference := true
      lastInferredFrameNum := f.frameNum
      lastAccessedFrameNum := f.frameNum
      lastInferredCoords := (obj.width, obj.height) }
  if ok then
    let batch := batch.getD { inbuf := if s.cfg.classifierAsyncMode then none else some buffer }
    { s with
      tracked := tracked
      log := s.logDecision item .infer
      submit := .objects buffer rest (some (batch.addFrame ⟨item, f.frameNum, history⟩)) }
  else { s with tracked := tracked, submit := .idle }

def skipObject (buffer : ℕ) (item : Item) (rest : List (Work R)) (batch : Option GstNvInferBatch) : GstNvInfer R :=
  { s with log := s.logDecision item .skip, submit := .objects buffer rest batch }

/-- The section of `gst_nvinfer_process_objects` for one object. -/
def processObject [CFloat R] (ok : Bool) (buffer : ℕ) (item : Item) (f : NvDsFrameMeta R) (obj : NvDsObjectMeta R)
    (rest : List (Work R)) (batch : Option GstNvInferBatch) : GstNvInfer R :=
  match s.tracked.source? f.padIndex with
  | none => s.skipObject buffer item rest batch
  | some si =>
    if s.cfg.classifierAsyncMode ∧ obj.objectId = untrackedObjectId then s.skipObject buffer item rest batch
    else
      let history := ObjectHistories.search si obj.objectId
      if shouldInferObject s.cfg obj f.frameNum (history.bind (s.tracked.histories[·]?)) then
        s.inferObject ok buffer item f obj history rest batch
      else match history with
        | none => s.skipObject buffer item rest batch
        | some h =>
          if s.cfg.networkType = .classifier ∧ s.cfg.classifierAsyncMode = false then
            s.deferObject ok buffer item f.frameNum h rest batch
          else if s.cfg.classifierAsyncMode then
            { s with tracked := s.tracked.modify h fun hist => { hist with lastAccessedFrameNum := f.frameNum } }.skipObject
              buffer item rest batch
          else s.skipObject buffer item rest batch

def processWork [CFloat R] (ok : Bool) (buffer : ℕ) (w : Work R) (rest : List (Work R))
    (batch : Option GstNvInferBatch) : GstNvInfer R :=
  match w with
  | .frame f => { s with
    tracked := s.tracked.updateSource f.padIndex fun si => { si with lastSeenFrameNum := f.frameNum }
    submit := .objects buffer rest batch }
  | .object item f obj => s.processObject ok buffer item f obj rest batch

/-- `convert_batch_and_push_to_input_thread` -/
def pushBatch (ok : Bool) (buffer : ℕ) (rest : List (Work R)) (batch : GstNvInferBatch) : GstNvInfer R :=
  if ok then { s with queues := s.queues.pushInput batch, submit := .objects buffer rest none }
  else { s with submit := .idle }

def cleanupHistoryMap : GstNvInfer R :=
  if ObjectHistories.mapCleanupInterval < wrapSub 64 s.currentBatchNum s.lastMapCleanupFrameNum then
    { s with tracked := s.tracked.cleanup, lastMapCleanupFrameNum := s.currentBatchNum }
  else s

def tensorBatch (buffer : ℕ) (frames : List (Item × ℕ)) (status : NvDsInferStatus) : GstNvInfer R :=
  let batch : GstNvInferBatch := { inbuf := some buffer, frames := frames.map fun f => ⟨f.1, f.2, none⟩ }
  match status with
  | .success => { s with queues := s.queues.pushProcess batch (some s.impl.inferCtx) }
  | .memError => s
  | .failed => { s with submit := .idle }

/-- The end of `gst_nvinfer_submit_input_buffer`. -/
def pushBuffer (buffer : ℕ) : GstNvInfer R :=
  if s.cfg.classifierAsyncMode then
    { s with
      submit := .idle
      log := { s.log with completed := s.log.completed ++ [buffer], pushed := s.log.pushed ++ [buffer] } }
  else
    { s with
      submit := .idle
      queues := s.enqueue (.push buffer)
      log := { s.log with completed := s.log.completed ++ [buffer] } }

/-! ### The streaming thread: events -/

def handleEvent (e : SinkEvent) : GstNvInfer R :=
  let s := { s with submit := .idle }
  match e with
  | .padAdded source => { s with tracked := s.tracked.addSource source }
  | .padDeleted source => { s with tracked := s.tracked.removeSource source }
  | .streamEos source => { s with tracked := s.tracked.clearSource source }
  | .inferIntervalUpdate interval => { s with interval := interval }
  | .eos => { s with intervalCounter := 0 }
  | _ => s

def sinkEvent (e : SinkEvent) : GstNvInfer R :=
  if e.isSerialized ∧ s.cfg.classifierAsyncMode = false then
    { s with queues := s.enqueue .marker, submit := .inEvent e false }
  else s.handleEvent e

def eventFlushed (e : SinkEvent) (processOnly : Bool) : Option (GstNvInfer R) :=
  (s.queues.emptied processOnly).map fun ended =>
    if ended then s.handleEvent e else { s with submit := .inEvent e true }

/-! ### The output thread -/

/-- The cached information of a history that is still there. -/
def cachedInfo (h : ℕ) : GstNvInferObjectInfo := ((s.tracked.histories[h]?).map (·.cachedInfo)).getD default

/-- A history that is gone is a null pointer. -/
def attachPending (pending : List (ℕ × Item)) : Option (Log R) :=
  if ∀ p ∈ pending, s.tracked.alive p.1 then
    some { s.log with attached := s.log.attached ++ pending.map fun p => (p.2, s.cachedInfo p.1) }
  else none

def outputPop : Option (GstNvInfer R) :=
  match s.queues.outputLoop, s.queues.processQueue with
  | .waiting, (b, queuedTo) :: rest =>
    let q := { s.queues with processQueue := rest }
    if b.eventMarker then some { s with queues := q.finish b }
    else if b.frames = [] ∧ b.pushBuffer = false then
      (s.attachPending b.objsPendingMetaAttach).map fun log => { s with queues := q.finish b, log := log }
    else if b.pushBuffer then some { s with queues := { q with outputLoop := .pushing b } }
    else some { s with queues := { q with outputLoop := .dequeuing b queuedTo none } }
  | _, _ => none

def outputPush : Option (GstNvInfer R) :=
  match s.queues.outputLoop with
  | .pushing b => some { s with
    queues := s.queues.finish b
    log := { s.log with pushed := s.log.pushed ++ b.inbuf.toList } }
  | _ => none

def outputContext : Option (GstNvInfer R) :=
  match s.queues.outputLoop with
  | .dequeuing b queuedTo none => some { s with
    queues := { s.queues with outputLoop := .dequeuing b queuedTo (some s.impl.inferCtx) } }
  | _ => none

/-- The output of one frame reaches the history of its object. -/
def outputFrame (classifier : Bool) (t : ObjectHistories R) (e : GstNvInferFrame × GstNvInferObjectInfo) :
    ObjectHistories R :=
  match e.1.history with
  | none => t
  | some h => if t.alive h then t.modify h fun hist => { hist with
      underInference := if hist.lastInferredFrameNum = e.1.frameNum then false else hist.underInference
      cachedInfo := if classifier then e.2 else hist.cachedInfo }
    else t

def outputFrames (b : GstNvInferBatch) (outputs : List GstNvInferObjectInfo) : ObjectHistories R :=
  (b.frames.zipIdx.map fun e => (e.1, outputs.getD e.2 default)).foldl
    (outputFrame (s.cfg.networkType = .classifier)) s.tracked

/-- Only detectors and instance segmentation read the threshold. -/
def contextUse (queuedTo : Option ℕ) (ctx : ℕ) : ContextUse where
  queuedTo := queuedTo
  dequeuedFrom := ctx
  typeParams := s.impl.initParams
  thresholdParams := match s.cfg.networkType with
    | .detector | .instanceSegmentation => some s.impl.outputLoopParams
    | _ => none

/-- The output is attached frame by frame, then what was deferred. -/
def outputAttach (b : GstNvInferBatch) (queuedTo : Option ℕ) (ctx : ℕ) (outputs : List GstNvInferObjectInfo) :
    Option (GstNvInfer R) :=
  let s := { s with
    tracked := s.outputFrames b outputs
    log := { s.log with
      outputs := s.log.outputs ++ b.frames.map GstNvInferFrame.item
      uses := s.log.uses ++ [s.contextUse queuedTo ctx] } }
  (s.attachPending b.objsPendingMetaAttach).map fun log => { s with queues := s.queues.finish b, log := log }

def outputDequeued (status : NvDsInferStatus) (outputs : List GstNvInferObjectInfo) : Option (GstNvInfer R) :=
  match s.queues.outputLoop with
  | .dequeuing b queuedTo (some ctx) =>
    if status = .success then s.outputAttach b queuedTo ctx outputs
    else some { s with queues := s.queues.finish b }
  | _ => none

end Submission

/-! ### The system -/

variable [CFloat R]

def step (s : GstNvInfer R) : Action R → Option (GstNvInfer R)
  | .submitInputBuffer buf => match s.submit with
    | .idle => s.ensureReplaceNextContext buf
    | _ => none
  | .flushed => match s.submit with
    | .flushing buf ctx processOnly => s.flushed buf ctx processOnly
    | _ => none
  | .processFrame ok => match s.submit with
    | .fullFrame buffer ((f, i) :: rest) batch => some (s.processFrame ok buffer f i rest batch)
    | .fullFrame buffer [] none => some { s with submit := .pushing buffer }
    | _ => none
  | .processWork ok => match s.submit with
    | .objects buffer (w :: rest) batch =>
      if batch.any (·.frames.length = s.cfg.maxBatchSize) then none
      else some (s.processWork ok buffer w rest batch)
    | _ => none
  | .pushBatch ok => match s.submit with
    | .objects buffer rest (some batch) =>
      if batch.frames.length = s.cfg.maxBatchSize ∨ rest.isEmpty then some (s.pushBatch ok buffer rest batch)
      else none
    | _ => none
  | .endObjects => match s.submit with
    | .objects buffer [] none => some { s.cleanupHistoryMap with submit := .pushing buffer }
    | _ => none
  | .tensorBatch frames status => match s.submit with
    | .tensors buffer =>
      if frames ≠ [] ∧ frames.length ≤ s.cfg.maxBatchSize then some (s.tensorBatch buffer frames status) else none
    | _ => none
  | .endTensors ok => match s.submit with
    | .tensors buffer => some { s with submit := if ok then .pushing buffer else .idle }
    | _ => none
  | .pushBuffer => match s.submit with
    | .pushing buffer => some (s.pushBuffer buffer)
    | _ => none
  | .sinkEvent e => match s.submit with
    | .idle => some (s.sinkEvent e)
    | _ => none
  | .eventFlushed => match s.submit with
    | .inEvent e processOnly => s.eventFlushed e processOnly
    | _ => none
  | .inputPop =>
    if s.cfg.inputTensorFromMeta then none
    else (s.queues.inputPop s.impl.inferCtx).map fun q => { s with queues := q }
  | .inputQueued status => (s.queues.inputQueued status).map fun q => { s with queues := q }
  | .outputPop => s.outputPop
  | .outputPush => s.outputPush
  | .outputContext => s.outputContext
  | .outputDequeued status outputs => s.outputDequeued status outputs
  | .loadModel =>
    if s.impl.loading then none
    else some { s with impl := { s.impl with loading := s.impl.nextContextReplacement = none } }
  | .loadFailed => if s.impl.loading then some { s with impl := { s.impl with loading := false } } else none
  | .triggerContextReplace =>
    if s.impl.loading then some { s with impl := { s.impl with
      loading := false
      nextContextReplacement := some s.impl.contexts
      contexts := s.impl.contexts + 1 } }
    else none

end GstNvInfer

/-- The element after `gst_nvinfer_start`. -/
def GstNvInfer.start (R : Type*) (cfg : Settings) (interval : ℕ) : GstNvInfer R where
  cfg := cfg
  queues := ⟨[], [], .waiting, .waiting, [], [], []⟩
  impl := ⟨0, 0, none, false, 1, 0⟩
  tracked := ⟨[(0, .new)], []⟩
  submit := .idle
  interval := interval
  intervalCounter := 0
  currentBatchNum := 0
  lastMapCleanupFrameNum := 0
  log := ⟨[], [], [], [], [], [], []⟩

/-- The states in which the element can start. -/
def Started (s : GstNvInfer R) : Prop := ∃ cfg interval, s = .start R cfg interval

end NvInfer
end DeepStream
