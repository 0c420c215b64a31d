/-
# The stream muxer

`NvStreamMux` keeps the map from pad ids to pads and the counters that decide
when all streams have ended. The definitions here are the sections of its
operations that run under its mutex, in the order of the source; what happens
between two sections of one operation is in `PushLoop`.

The map is read by `operator[]` throughout (`lookup`), which enters a null pad
under an id that is absent. The order in which a hash map is traversed is a
parameter.
-/
import DeepStream.Mux.Batch

namespace DeepStream
namespace Mux

open Std

structure NvStreamMux where
  inputs : Inputs
  srcPad : List SrcItem
  state : SourceState
  numSourcesIdle : ℕ
  padsGotEosAndEmptyInQ : ℕ
  batch : Option Batch
  stopTask : Bool
  allPadsEos : Bool
  batchPolicy : BatchPolicy
  frameNumResetOnEos : Bool
  frameNumResetOnStreamReset : Bool

/-- What is set before the muxer runs. -/
structure MuxConfig where
  policy : BatchPolicyConfig
  synchBuffer : Bool
  frameNumResetOnEos : Bool
  frameNumResetOnStreamReset : Bool

/-- `copy_buf` of the output batch, which a subclass defines: how many surfaces
it took of a buffer, and the output batch after that. -/
abbrev CopyBuf (ω : Type*) := ω → BufferWrapper → ℕ → ℕ × ω

/-- The output batch of video: `numFilled` of its `batchSize` surfaces are used,
and `gstInBufs` keeps the buffers alive. -/
structure GstBatchBufferWrapper where
  batchSize : ℕ
  numFilled : ℕ
  gstInBufs : List BufferWrapper
  deriving DecidableEq, Repr

/-- `copy_buf` of video: all surfaces of a buffer fit, or none is copied. -/
def GstBatchBufferWrapper.copyBuf : CopyBuf GstBatchBufferWrapper := fun out src _ =>
  if wrapAdd 32 src.numFilled out.numFilled > out.batchSize then
    (0, { out with gstInBufs := out.gstInBufs ++ [src] })
  else
    (src.numFilled, { out with
      numFilled := wrapAdd 32 out.numFilled src.numFilled
      gstInBufs := out.gstInBufs ++ [src] })

namespace NvStreamMux

/-- The constructor and `set_policy`. -/
def new (config : MuxConfig) : NvStreamMux where
  inputs := ∅
  srcPad := []
  state := .idle
  numSourcesIdle := 0
  padsGotEosAndEmptyInQ := 0
  batch := none
  stopTask := false
  allPadsEos := false
  batchPolicy := { BatchPolicy.new config.policy [] with synchBuffer := config.synchBuffer }
  frameNumResetOnEos := config.frameNumResetOnEos
  frameNumResetOnStreamReset := config.frameNumResetOnStreamReset

/-- `inputs[id]`, which enters a null pad when the id is absent. -/
def lookup (m : NvStreamMux) (id : ℕ) : NvStreamMux :=
  { m with inputs := Table.touch m.inputs id none }

/-- The pad under an id, when there is one that is not null. -/
def pad (m : NvStreamMux) (id : ℕ) : Option SinkPad := m.inputs[id]?.join

/-- The object of the pad under `id` is changed. -/
def setPad (m : NvStreamMux) (id : ℕ) (p : SinkPad) : NvStreamMux :=
  { m with inputs := m.inputs.insert id (some p) }

/-- What `pushEvents` does to a pad after its events are pushed: a pad that was
to go idle does so once its queue is empty. -/
def goIdle (m : NvStreamMux) (p : SinkPad) : NvStreamMux × SinkPad :=
  if p.switchedToIdle ∧ p.queue.length = 0 then
    let p' := { p with state := .idle, switchedToIdle := false }
    let m' := { m with numSourcesIdle := wrapAdd 32 m.numSourcesIdle 1 }
    if p'.eos then
      ({ m' with
          padsGotEosAndEmptyInQ := wrapAdd 32 m'.padsGotEosAndEmptyInQ 1
          batchPolicy := m'.batchPolicy.updateEosSources (wrapAdd 32 m'.batchPolicy.numSourcesEos 1) },
        if m.frameNumResetOnEos then { p' with frameCount := 0 } else p')
    else (m', p')
  else (m, p)

/-- A pad that was to become active is no longer counted as idle. -/
def goActive (m : NvStreamMux) (p : SinkPad) : NvStreamMux × SinkPad :=
  if p.switchedToActive then
    ({ m with numSourcesIdle := if m.numSourcesIdle > 0 then m.numSourcesIdle - 1 else m.numSourcesIdle },
      { p with switchedToActive := false })
  else (m, p)

/-- The body of the loop of `push_events`. -/
def pushEventsOfPad (m : NvStreamMux) (id : ℕ) : NvStreamMux :=
  match m.pad id with
  | none => m
  | some p =>
    let r := p.pushEvents
    let idle := goIdle { m with srcPad := m.srcPad ++ r.2 } r.1
    let active := goActive idle.1 idle.2
    active.1.setPad id active.2

/-- The end of `push_events`. -/
def updateAllPadsEos (m : NvStreamMux) : NvStreamMux :=
  { m with
    allPadsEos := if m.inputs.size ≠ 0 then m.padsGotEosAndEmptyInQ = m.inputs.size else m.allPadsEos
    batchPolicy := m.batchPolicy.updateIdleSources m.numSourcesIdle }

/-- `push_events`; `order` is the order of the map. -/
def pushEvents (m : NvStreamMux) (order : List ℕ) : Option NvStreamMux :=
  if order.Perm m.inputs.keys then some (order.foldl pushEventsOfPad m).updateAllPadsEos else none

/-! ### Adding and removing pads -/

def getPad (m : NvStreamMux) (padId : ℕ) : NvStreamMux × Option SinkPad :=
  (m.lookup padId, (m.lookup padId).pad padId)

/-- `add_pad`, with the pad that the caller has just constructed. -/
def addPad (m : NvStreamMux) (padId : ℕ) : NvStreamMux :=
  { m with
    batchPolicy := m.batchPolicy.checkAndUpdateDefaults padId
    allPadsEos := false }.setPad padId { SinkPad.new padId with switchedToIdle := true }

/-- The end of `remove_pad`. -/
def erasePad (m : NvStreamMux) (id : ℕ) : NvStreamMux :=
  { m with
    inputs := m.inputs.erase id
    allPadsEos := if (m.inputs.erase id).size = 0 then true else m.allPadsEos }

/-- A pad is taken out of the two counters of the ended streams. -/
def uncountEos (m : NvStreamMux) : NvStreamMux :=
  { m with
    padsGotEosAndEmptyInQ := wrapSub 32 m.padsGotEosAndEmptyInQ 1
    batchPolicy := m.batchPolicy.updateEosSources (wrapSub 32 m.batchPolicy.numSourcesEos 1) }

/-- `remove_pad` up to the first test of its loop; whether the caller has to
wait. No result when the pad is null. -/
def removePad (m : NvStreamMux) (id : ℕ) : Option (NvStreamMux × Bool) :=
  if id ∉ m.inputs then some (m, false)
  else
    match m.pad id with
    | none => none
    | some p =>
      let m := if p.queue.length = 0 then m.uncountEos else m
      if p.eos then some (m.erasePad id, false) else some (m, true)

/-- `remove_pad` after a sleep; `count` is the number of sleeps. -/
def removePadPoll (m : NvStreamMux) (id count : ℕ) : Option (NvStreamMux × Bool) :=
  match m.pad id with
  | none => none
  | some p =>
    if p.eos then some (m.erasePad id, false)
    else if count < 100 then some (m, true)
    else some ({ m with
      padsGotEosAndEmptyInQ := wrapAdd 32 m.padsGotEosAndEmptyInQ 1 }.erasePad id, false)

/-- `reset_pad`, called with the pad that a look-up returned. -/
def resetPad (m : NvStreamMux) (id : ℕ) : Option NvStreamMux :=
  match m.pad id with
  | none => none
  | some p =>
    if p.eos then
      let m := m.setPad id { p with eos := false }
      if m.batchPolicy.numSourcesEos > 0 then some { m.uncountEos with allPadsEos := false }
      else some m
    else some m

def setAllPadsEos (m : NvStreamMux) (eos : Bool) : NvStreamMux := { m with allPadsEos := eos }

/-! ### Buffers and events -/

/-- `add_buffer` after it has waited for room in the queue (`addBufferWait`). -/
def addBufferQueue (m : NvStreamMux) (sourceId : ℕ) (buffer : BufferWrapper) : Option NvStreamMux :=
  match m.pad sourceId with
  | none => none
  | some p =>
    let p := if p.state = .idle then { p with switchedToActive := true } else p
    let p := { p with state := .playing }
    some ({ m with
      state := .playing
      batchPolicy := { m.batchPolicy with
        totalBufAvailable := wrapAdd 32 m.batchPolicy.totalBufAvailable 1 }
      allPadsEos := false }.setPad sourceId (p.queueEntry (.buffer buffer)))

/-- The part of `add_buffer` that sets the bound on the queue. -/
def addBufferSize (m : NvStreamMux) (sourceId : ℕ) : Option NvStreamMux :=
  match m.pad sourceId with
  | none => none
  | some p =>
    let batchSize := m.batchPolicy.getBatchSize m.inputs.size
    some (if batchSize > p.maxBufferCount then m.setPad sourceId { p with maxBufferCount := batchSize }
      else m)

/-- The part of `add_buffer` that waits for room in the queue. -/
def addBufferWait (m : NvStreamMux) (sourceId : ℕ) : Option NvStreamMux :=
  (m.pad sourceId).map fun p => m.setPad sourceId p.waitIfQueueFull

def handleFlushStop (m : NvStreamMux) (sourceId : ℕ) : NvStreamMux :=
  let m := m.lookup sourceId
  match m.pad sourceId with
  | none => m
  | some p =>
    { m with allPadsEos := false }.setPad sourceId { p with state := .playing, switchedToActive := true }

def handleEos (m : NvStreamMux) (sourceId : ℕ) (event : EventWrapper) : NvStreamMux :=
  let m := m.lookup sourceId
  match m.pad sourceId with
  | none => m
  | some p =>
    if p.eos then m
    else m.setPad sourceId
      { p.queueEntry (.event event) with switchedToIdle := true, switchedToActive := false, eos := true }

/-- The pad is used without a test, so there is no result when it is null. -/
def handleEosCascaded (m : NvStreamMux) (sourceId : ℕ) (event : EventWrapper) : Option NvStreamMux :=
  match m.pad sourceId with
  | none => none
  | some p => some (m.setPad sourceId (p.queueEntry (.event event)))

def handleSegment (m : NvStreamMux) (sourceId : ℕ) (event : EventWrapper) : NvStreamMux :=
  let m := m.lookup sourceId
  match m.pad sourceId with
  | none => m
  | some p => m.setPad sourceId (p.queueEntry (.event event))

def handleStreamReset (m : NvStreamMux) (sourceId : ℕ) (event : EventWrapper) : NvStreamMux :=
  let m := m.lookup sourceId
  match m.pad sourceId with
  | none => m
  | some p =>
    let p := p.queueEntry (.event event)
    m.setPad sourceId (if m.frameNumResetOnStreamReset then { p with frameCount := 0 } else p)

def resetStop (m : NvStreamMux) : NvStreamMux := { m with stopTask := false }

def handleStop (m : NvStreamMux) : NvStreamMux :=
  { m with
    stopTask := true
    inputs := m.inputs.map fun _ v => v.map fun p =>
      if m.frameNumResetOnEos then { p.reset with frameCount := 0 } else p.reset }

def updatePadMimetype (m : NvStreamMux) (id : ℕ) (mimeType : PadMimeType) : NvStreamMux :=
  let m := m.lookup id
  match m.pad id with
  | none => m
  | some p => m.setPad id { p with mimeType := mimeType }

def getPadMimetype (m : NvStreamMux) (id : ℕ) : NvStreamMux × PadMimeType :=
  (m.lookup id, (((m.lookup id).pad id).map SinkPad.mimeType).getD .invalid)

def setBatchSize (m : NvStreamMux) (size : ℕ) : NvStreamMux :=
  { m with batchPolicy := m.batchPolicy.setBatchSize size }

def setNumSurfacesPerFrame (m : NvStreamMux) (num : ℕ) : NvStreamMux :=
  { m with batchPolicy := m.batchPolicy.setNumSurfaces num }

/-! ### Copying a batch -/

/-- The loop of `copy_batch` over one queue. -/
structure CopyResult (ω : Type*) where
  out : ω
  totalCopied : ℕ
  queue : List QueueEntry
  /-- The buffers that left the queue, each with the surfaces copied of it. -/
  copied : List (BufferWrapper × ℕ)

section Copy

variable {ω : Type*} (copyBuf : CopyBuf ω)

/-- At most `n` buffers are copied; events are skipped, and a buffer of which
nothing fits ends the loop. -/
def copyQueue : ℕ → ω → ℕ → List QueueEntry → CopyResult ω
  | 0, out, total, q => ⟨out, total, q, []⟩
  | _ + 1, out, total, [] => ⟨out, total, [], []⟩
  | n + 1, out, total, .event e :: q =>
    let r := copyQueue (n + 1) out total q
    { r with queue := .event e :: r.queue }
  | n + 1, out, total, .buffer b :: q =>
    match copyBuf out b total with
    | (0, out) => ⟨out, total, .buffer b :: q, []⟩
    | (k + 1, out) =>
      let r := copyQueue n out (wrapAdd 32 total (k + 1)) q
      { r with copied := (b, k + 1) :: r.copied }

/-- What `copy_batch` carries from source to source. -/
structure CopyState (ω : Type*) where
  mux : NvStreamMux
  out : ω
  totalCopied : ℕ
  copied : List (ℕ × BufferWrapper)

/-- The body of the loop of `copy_batch`; `count` is `it->second`. -/
def copySource (count : ℤ) (st : CopyState ω) (id : ℕ) : CopyState ω :=
  let m := st.mux.lookup id
  match m.pad id with
  | none => { st with mux := m }
  | some p =>
    let r := copyQueue copyBuf count.toNat st.out st.totalCopied p.queue
    let numSourcesCopied := r.copied.length
    let policy := { m.batchPolicy with
      totalBufAvailable := wrapSub 32 m.batchPolicy.totalBufAvailable numSourcesCopied }
    let p' := SinkPad.popBufferDone^[numSourcesCopied] { p with
      queue := r.queue
      frameCount := wrapAdd 64 p.frameCount (r.copied.map Prod.snd).sum }
    { mux := { m with
        batchPolicy := if 0 < numSourcesCopied ∧ (numSourcesCopied : ℤ) = count then
          policy.updatePushStats p.id else policy }.setPad id
            (p'.adjustEventIndices numSourcesCopied false)
      out := r.out
      totalCopied := r.totalCopied
      copied := st.copied ++ r.copied.map fun b => (id, b.1) }

/-- `copy_batch`; `order` is the order of the counts. -/
def copyBatch (m : NvStreamMux) (out : ω) (order : List ℕ) : Option (CopyState ω) :=
  match m.batch with
  | none => none
  | some b =>
    if order.Perm b.numSources.keys then
      some (order.foldl (fun st id => copySource copyBuf (b.numSources.getD id 0) st id) ⟨m, out, 0, []⟩)
    else none

end Copy

/-- `form_batch` as `push_loop` calls it. -/
def formBatch (m : NvStreamMux) (env : ℕ → OfferEnv) : Option NvStreamMux :=
  (m.batchPolicy.formBatch m.inputs m.batch (m.batchPolicy.getBatchSize m.inputs.size) env).map fun r =>
    { m with batchPolicy := r.1, inputs := r.2.inputs, batch := some r.2.batch }

/-- `push_batch`. -/
def pushBatch (m : NvStreamMux) (copied : List (ℕ × BufferWrapper)) : NvStreamMux :=
  { m with srcPad := m.srcPad ++ [.batch copied] }

end NvStreamMux
end Mux
end DeepStream
