/-
# The threads of the stream muxer

One thread runs `push_loop`; the pads are served by threads of the application
and of the upstream elements. Each operation takes the mutex for one section
after another, and `step` runs one section of one of them, in any order. A
section that would use a null pad, or read past the end of a container, has no
successor.

`push_loop` gives up the mutex at five places; `LoopPc` says where it is and
holds what is local to it, the output batch and the buffers that are copied
and not pushed yet. The caller of `remove_pad` waits for the end of the stream
in `removers`. The fields `added` and `muxed` record the buffers that were
queued on each pad, and the pads that were added and not removed.
-/
import DeepStream.Lib.Run
import DeepStream.Mux.Streammux

namespace DeepStream
namespace Mux

/-- Where `push_loop` is: `called` is `push_events_called`, `pushed` is
`ret_push_batch_called`. -/
inductive LoopPc (ω : Type*) where
  | idle
  | check (called : Bool) (out : ω)
  | enter (called : Bool) (out : ω)
  | firstEvents (out : ω)
  | form (out : ω)
  | waiting (out : ω)
  | wokenEvents (out : ω)
  | wokenCheck (out : ω)
  | copyEvents (out : ω)
  | copy (out : ω)
  | push (out : ω) (copied : List (ℕ × BufferWrapper))
  | reset (out : ω)
  | tail (out : ω)
  | finish (out : ω)

/-- The buffers that have left their queues and are not pushed yet. -/
def LoopPc.inFlight {ω : Type*} : LoopPc ω → List (ℕ × BufferWrapper)
  | .push _ copied => copied
  | _ => []

/-- What a section of `push_loop` takes from outside: the order of the map, the
clock and the synchronization interface. -/
structure Outside where
  order : List ℕ
  env : ℕ → OfferEnv
  waitNotPastMax : Bool
  noDelay : Bool

namespace NvStreamMux

/-- `is_ready_or_due`. -/
def isReadyOrDue (b : Batch) (noDelay : Bool) : Bool := isReady b || (noDelay && 0 < b.accBatch)

section Loop

variable {ω : Type*} (copyBuf : CopyBuf ω) (o : Outside)

/-- `push_loop` from `form_batch` to the next place where it gives up the
mutex. -/
def afterForm (m : NvStreamMux) (out : ω) : Option (NvStreamMux × LoopPc ω) :=
  match m.formBatch o.env with
  | none => none
  | some m =>
    match m.batch with
    | none => none
    | some b =>
      if ¬ isReady b ∧ o.waitNotPastMax then some (m, .waiting out)
      else if (isReadyOrDue b o.noDelay ∨ ¬ o.waitNotPastMax) ∧ 0 < b.accBatch then
        some (m, .copyEvents out)
      else if b.accBatch = 0 ∧ ¬ o.waitNotPastMax then some (m, .tail out)
      else some (m, .check true out)

/-- One section of `push_loop`. -/
def loopStep (m : NvStreamMux) : LoopPc ω → Option (NvStreamMux × LoopPc ω)
  | .idle => none
  | .check called out =>
    some (m, if ¬ m.stopTask ∧ (m.batch.all fun b => !isReady b) then .enter called out else .tail out)
  | .enter called out =>
    if m.inputs.size = 0 then some (m, .tail out)
    else if called then afterForm o m out
    else some (m, .firstEvents out)
  | .firstEvents out => (m.pushEvents o.order).map fun m => (m, .form out)
  | .form out => afterForm o m out
  | .waiting out =>
    match m.batch with
    | none => none
    | some b => some (m, if b.accBatch = 0 then .wokenEvents out else .wokenCheck out)
  | .wokenEvents out => (m.pushEvents o.order).map fun m => (m, .wokenCheck out)
  | .wokenCheck out =>
    match m.batch with
    | none => none
    | some b => some (m, if m.stopTask ∨ isReadyOrDue b o.noDelay then .tail out else .check true out)
  | .copyEvents out => (m.pushEvents o.order).map fun m => (m, .copy out)
  | .copy out => (m.copyBatch copyBuf out o.order).map fun r => (r.mux, .push r.out r.copied)
  | .push out copied => some (m.pushBatch copied, .reset out)
  | .reset out => some ({ m with batch := m.batch.map Batch.resetBatch }, .tail out)
  | .tail out => (m.pushEvents o.order).map fun m => (m, .finish out)
  | .finish _ => some (m, .idle)

end Loop

end NvStreamMux

/-! ### The system -/

structure Sys (ω : Type*) where
  mux : NvStreamMux
  loop : LoopPc ω
  /-- The callers of `remove_pad` that sleep, each with the number of sleeps. -/
  removers : List (ℕ × ℕ)
  added : ℕ → List BufferWrapper
  muxed : Finset ℕ

/-- One section of one operation. `PAUSED_TO_READY` is a `getPad` for each key
of `sink_pad_caps`, then `handleStop`, `resetStop` and `setAllPadsEos`. -/
inductive Action (ω : Type*) where
  | getPad (id : ℕ)
  | addPad (id : ℕ)
  | removePad (id : ℕ)
  | removePadPoll (i : ℕ)
  | resetPad (id : ℕ)
  | setAllPadsEos (eos : Bool)
  | addBufferLookup (id : ℕ)
  | addBufferSize (id : ℕ)
  | addBufferWait (id : ℕ)
  | addBufferQueue (id : ℕ) (buffer : BufferWrapper)
  | handleFlushStop (id : ℕ)
  | handleEos (id : ℕ) (event : EventWrapper)
  | handleEosCascaded (id : ℕ) (event : EventWrapper)
  | handleSegment (id : ℕ) (event : EventWrapper)
  | handleStreamReset (id : ℕ) (event : EventWrapper)
  | handleStop
  | resetStop
  | updatePadMimetype (id : ℕ) (mimeType : PadMimeType)
  | getPadMimetype (id : ℕ)
  | setBatchSize (size : ℕ)
  | setNumSurfacesPerFrame (num : ℕ)
  | pushEvents (order : List ℕ)
  | pushLoop (out : ω)
  | loop (o : Outside)

namespace Sys

variable {ω : Type*}

/-- A muxer on which nothing was called yet. -/
def new (config : MuxConfig) : Sys ω := ⟨NvStreamMux.new config, .idle, [], fun _ => [], ∅⟩

/-- The start of a run. -/
def Started (s : Sys ω) : Prop := ∃ config, s = new config

def onMux (s : Sys ω) (m : NvStreamMux) : Sys ω := { s with mux := m }

/-- A caller of `remove_pad` goes on sleeping, or has erased the pad. -/
def removing (s : Sys ω) (m : NvStreamMux) (id count : ℕ) (waits : Bool) : Sys ω :=
  if waits then { s with mux := m, removers := s.removers ++ [(id, count)] }
  else { s with mux := m, muxed := s.muxed.erase id }

def step (copyBuf : CopyBuf ω) (s : Sys ω) : Action ω → Option (Sys ω)
  | .getPad id => some (s.onMux (s.mux.getPad id).1)
  | .addPad id => some { s with mux := s.mux.addPad id, muxed := insert id s.muxed }
  | .removePad id => (s.mux.removePad id).map fun r => s.removing r.1 id 0 r.2
  | .removePadPoll i =>
    match s.removers[i]? with
    | none => none
    | some (id, count) =>
      (s.mux.removePadPoll id (count + 1)).map fun r =>
        { s with removers := s.removers.eraseIdx i }.removing r.1 id (count + 1) r.2
  | .resetPad id => (s.mux.resetPad id).map s.onMux
  | .setAllPadsEos eos => some (s.onMux (s.mux.setAllPadsEos eos))
  | .addBufferLookup id => some (s.onMux (s.mux.lookup id))
  | .addBufferSize id => (s.mux.addBufferSize id).map s.onMux
  | .addBufferWait id => (s.mux.addBufferWait id).map s.onMux
  | .addBufferQueue id buffer => (s.mux.addBufferQueue id buffer).map fun m =>
      { s with mux := m, added := Function.update s.added id (s.added id ++ [buffer]) }
  | .handleFlushStop id => some (s.onMux (s.mux.handleFlushStop id))
  | .handleEos id event => some (s.onMux (s.mux.handleEos id event))
  | .handleEosCascaded id event => (s.mux.handleEosCascaded id event).map s.onMux
  | .handleSegment id event => some (s.onMux (s.mux.handleSegment id event))
  | .handleStreamReset id event => some (s.onMux (s.mux.handleStreamReset id event))
  | .handleStop => some (s.onMux s.mux.handleStop)
  | .resetStop => some (s.onMux s.mux.resetStop)
  | .updatePadMimetype id mimeType => some (s.onMux (s.mux.updatePadMimetype id mimeType))
  | .getPadMimetype id => some (s.onMux (s.mux.getPadMimetype id).1)
  | .setBatchSize size => some (s.onMux (s.mux.setBatchSize size))
  | .setNumSurfacesPerFrame num => some (s.onMux (s.mux.setNumSurfacesPerFrame num))
  | .pushEvents order => (s.mux.pushEvents order).map s.onMux
  | .pushLoop out =>
    match s.loop with
    | .idle => some { s with loop := .check false out }
    | _ => none
  | .loop o => (s.mux.loopStep copyBuf o s.loop).map fun r => { s with mux := r.1, loop := r.2 }

end Sys
end Mux
end DeepStream
