/-
# Buffers and events of gst-nvinferserver

`gst_nvinfer_server_submit_input_buffer` hands the requests of a buffer to the
inference context and queues on the output thread, behind the end of each request,
an operation that pushes the buffer (in async mode it pushes the buffer itself).
`gst_nvinfer_server_sink_event` waits in `sync` until the output thread has come to
an operation of its own before it forwards a serialized event.

A step is what a thread does between two points at which another can come in. The
base class stops the streaming thread before it calls `stop`, and no data comes
between `stop` and `start`. What a start, a check of the input or the context
answers is chosen with the step. `submitted`, `pushed` and `requests` are not in the
source: they record what happened since the last start.
-/
import DeepStream.InferServer.QueueThread
import DeepStream.Lib.Run

namespace DeepStream
namespace InferServer

/-! ### The element -/

/-- An operation of the output thread: the end of a request, the push of a buffer,
the promise of a `sync`. -/
inductive FuncItem where
  | inferenceDone (req : ℕ)
  | pushBuffer (seqId : ℕ)
  | sync (n : ℕ)
  deriving DecidableEq, Repr

/-- An event on the sink pad. -/
inductive SinkEvent where
  | tag
  | other (serialized : Bool)
  deriving DecidableEq, Repr

/-- Serialized, and not ignored. -/
def SinkEvent.isSerialized : SinkEvent → Bool
  | .tag => false
  | .other serialized => serialized

/-- Where the streaming thread is. -/
inductive Streaming where
  | idle
  | processing (seqId : ℕ)
  | queueing (seqId req : ℕ)
  | pushing (seqId : ℕ)
  | inEvent (e : SinkEvent)
  | syncing (e : SinkEvent)
  | waiting (e : SinkEvent) (n : ℕ)
  | forwarding (e : SinkEvent)
  deriving DecidableEq, Repr

/-- Where the thread is that starts and stops the element. -/
inductive Life where
  | stopped
  | started
  | inStop
  | syncing
  | waiting (n : ℕ)
  | joining
  | deinit
  deriving DecidableEq, Repr

structure GstNvInferServer where
  stopped : Bool := false
  outputThread : Option (QueueThread FuncItem) := none
  asyncMode : Bool := false
  currentBatchNum : ℕ := 0
  life : Life := .stopped
  streaming : Streaming := .idle
  nextRequest : ℕ := 0
  completed : List ℕ := []
  nextSync : ℕ := 0
  signalled : List ℕ := []
  submitted : List ℕ := []
  pushed : List ℕ := []
  requests : List ℕ := []
  deriving DecidableEq, Repr

inductive Action where
  | start (asyncMode ok : Bool)
  | stop
  | submit
  | run (ok : Bool)
  | processed (ok : Bool)
  | event (e : SinkEvent)
  | streamingGoesOn
  | stopGoesOn
  | complete (req : ℕ)
  | pop
  | ran
  deriving DecidableEq, Repr

def Action.starts : Action → Bool
  | .start _ _ => true
  | _ => false

namespace GstNvInferServer

variable (s : GstNvInferServer)

/-- `GstNvInferServerImpl::start`; `m_Stopped` is left as it is. -/
def start (asyncMode ok : Bool) : Option GstNvInferServer :=
  if s.life = .stopped then
    if ok then some { s with life := .started, asyncMode := asyncMode, outputThread := some {},
                             submitted := [], pushed := [], requests := [] }
    else some s
  else none

/-- The streaming thread takes what comes on the sink pad. -/
def Ready : Prop := s.life = .started ∧ s.streaming = .idle

instance : Decidable s.Ready := inferInstanceAs (Decidable (_ ∧ _))

def queueOperation (i : FuncItem) : Option GstNvInferServer :=
  s.outputThread.map fun q => { s with outputThread := some (q.queueItem i) }

/-- `m_InferCtx->run` in `batchInference`: a refused request fails the buffer. -/
def run (ok : Bool) : Option GstNvInferServer :=
  match s.streaming with
  | .processing b =>
    if ok then some { s with streaming := .queueing b s.nextRequest, nextRequest := s.nextRequest + 1,
                             requests := s.requests ++ [s.nextRequest] }
    else some { s with streaming := .idle }
  | _ => none

/-- The rest of `submit_input_buffer`; it fails when a check or `processBatchMeta` does. -/
def processed (ok : Bool) : Option GstNvInferServer :=
  match s.streaming with
  | .processing b => if ok then some { s with streaming := .pushing b } else some { s with streaming := .idle }
  | _ => none

/-- The streaming thread goes on. -/
def streamingGoesOn : Option GstNvInferServer :=
  match s.streaming with
  | .queueing b r => ({ s with streaming := .processing b }).queueOperation (.inferenceDone r)
  | .pushing b =>
    if s.asyncMode then
      some { s with streaming := .idle, submitted := s.submitted ++ [b], pushed := s.pushed ++ [b] }
    else ({ s with streaming := .idle, submitted := s.submitted ++ [b] }).queueOperation (.pushBuffer b)
  | .inEvent e =>
    if e.isSerialized ∧ s.asyncMode = false ∧ s.stopped = false then some { s with streaming := .syncing e }
    else some { s with streaming := .forwarding e }
  | .syncing e =>
    ({ s with streaming := .waiting e s.nextSync, nextSync := s.nextSync + 1 }).queueOperation (.sync s.nextSync)
  | .waiting e n => if n ∈ s.signalled then some { s with streaming := .forwarding e } else none
  | .forwarding _ => some { s with streaming := .idle }
  | _ => none

/-- `GstNvInferServerImpl::stop` goes on. -/
def stopGoesOn : Option GstNvInferServer :=
  match s.life with
  | .inStop => if s.stopped then some { s with life := .joining } else some { s with life := .syncing }
  | .syncing =>
    ({ s with life := .waiting s.nextSync, nextSync := s.nextSync + 1 }).queueOperation (.sync s.nextSync)
  | .waiting n => if n ∈ s.signalled then some { s with life := .joining } else none
  | .joining =>
    s.outputThread.bind fun q =>
      if q.exited then some { s with outputThread := none, life := .deinit }
      else if q.wakeup then none
      else some { s with outputThread := some q.wakeupOnce }
  | .deinit => some { s with stopped := true, life := .stopped }
  | _ => none

/-- The end of an operation; the end of a request waits for its callback. -/
def ran : Option GstNvInferServer :=
  s.outputThread.bind fun q => (q.ran true).bind fun q' =>
    match q.items.running with
    | some (.inferenceDone r) => if r ∈ s.completed then some { s with outputThread := some q' } else none
    | some (.pushBuffer b) => some { s with outputThread := some q', pushed := s.pushed ++ [b] }
    | some (.sync n) => some { s with outputThread := some q', signalled := n :: s.signalled }
    | none => none

def step (s : GstNvInferServer) : Action → Option GstNvInferServer
  | .start asyncMode ok => s.start asyncMode ok
  | .stop => if s.Ready then some { s with life := .inStop } else none
  | .submit =>
    if s.Ready then
      some { s with currentBatchNum := s.currentBatchNum + 1, streaming := .processing (s.currentBatchNum + 1) }
    else none
  | .run ok => s.run ok
  | .processed ok => s.processed ok
  | .event e => if s.Ready then some { s with streaming := .inEvent e } else none
  | .streamingGoesOn => s.streamingGoesOn
  | .stopGoesOn => s.stopGoesOn
  | .complete r => if r < s.nextRequest ∧ r ∉ s.completed then some { s with completed := r :: s.completed } else none
  | .pop => s.outputThread.bind fun q => q.pop.map fun q' => { s with outputThread := some q' }
  | .ran => s.ran

/-- The element is made; it has never been started. -/
def Started (s : GstNvInferServer) : Prop := s = {}

/-- The element is not started after it was stopped. -/
def NotRestarted (s : GstNvInferServer) (a : Action) : Prop := a.starts → s.stopped = false

instance (s : GstNvInferServer) (a : Action) : Decidable (s.NotRestarted a) := inferInstanceAs (Decidable (_ → _))

/-- When an event that is serialized goes on, the buffers before it have gone, and
(outside of async mode) so has all work of the output thread. -/
def InOrder (s : GstNvInferServer) : Prop :=
  ∀ e, s.streaming = .forwarding e → e.isSerialized → s.pushed = s.submitted ∧
    (s.asyncMode = false → ∀ q ∈ s.outputThread, q.items.line = [] ∧
      ∀ r ∈ s.requests, FuncItem.inferenceDone r ∈ q.items.finished)

end GstNvInferServer

/-! ### The invariant -/

def FuncItem.buffer? : FuncItem → Option ℕ
  | .pushBuffer b => some b
  | _ => none

/-- The buffers that the operations push. -/
def buffersOf (l : List FuncItem) : List ℕ := l.filterMap FuncItem.buffer?

namespace GstNvInferServer

open QueueThread (history_queueItem pop_cases ran_cases)

/-- The output thread of a started element, against what was submitted. -/
structure Flow (s : GstNvInferServer) (q : QueueThread FuncItem) : Prop where
  running : q.exited = false ∧ q.wakeup = false
  queued : buffersOf q.items.history = if s.asyncMode then [] else s.submitted
  pushed : s.pushed = if s.asyncMode then s.submitted else buffersOf q.items.finished
  requests : ∀ r ∈ s.requests, FuncItem.inferenceDone r ∈ q.items.history ∨ ∃ b, s.streaming = .queueing b r
  waiting : ∀ e n, s.streaming = .waiting e n → (∃ l, q.items.history = l ++ [.sync n] ∧ FuncItem.sync n ∉ l) ∧
    (n ∈ s.signalled → FuncItem.sync n ∈ q.items.finished)
  forwarding : ∀ e, s.streaming = .forwarding e → e.isSerialized → s.asyncMode = false →
    q.items.finished = q.items.history

structure Inv (s : GstNvInferServer) : Prop where
  started : s.life = .started → s.stopped = false ∧ ∃ q, s.outputThread = some q ∧ Flow s q
  idle : s.life ≠ .started → s.streaming = .idle
  syncs : ∀ q ∈ s.outputThread, ∀ n, FuncItem.sync n ∈ q.items.history → n < s.nextSync
  signalled : ∀ n ∈ s.signalled, n < s.nextSync

variable {s s' : GstNvInferServer}

theorem Inv.inOrder (h : s.Inv) : s.InOrder := by
  intro e he hser
  have hlife : s.life = .started := by
    by_contra hne
    rw [h.idle hne] at he
    cases he
  obtain ⟨-, q, hq, hflow⟩ := h.started hlife
  constructor
  · rw [hflow.pushed]
    by_cases ha : s.asyncMode
    · rw [if_pos ha]
    · have hqueued := hflow.queued
      rw [if_neg ha] at hqueued ⊢
      rw [hflow.forwarding e he hser (by simpa using ha), hqueued]
  · intro ha q' hq'
    obtain rfl := Option.some.inj (hq.symm.trans hq')
    have hall := hflow.forwarding e he hser ha
    refine ⟨Fifo.line_eq_nil hall, fun r hr => ?_⟩
    rcases hflow.requests r hr with hr | ⟨b, hb⟩
    · exact hall ▸ hr
    · rw [he] at hb
      cases hb

theorem mem_queueOperation {i : FuncItem} (h : s.queueOperation i = some s') :
    ∃ q, s.outputThread = some q ∧ s' = { s with outputThread := some (q.queueItem i) } := by
  obtain ⟨q, hq, rfl⟩ := Option.map_eq_some_iff.mp h
  exact ⟨q, hq, rfl⟩

@[simp] theorem buffersOf_append (l l' : List FuncItem) : buffersOf (l ++ l') = buffersOf l ++ buffersOf l' :=
  List.filterMap_append

namespace Flow

variable {q q' : QueueThread FuncItem}

/-- The streaming thread goes from one point to another at which nothing is said. -/
theorem streaming (h : Flow s q) {p : Streaming} (hs : s' = { s with streaming := p })
    (hold : ∀ b r, s.streaming ≠ .queueing b r)
    (hwaiting : ∀ e n, p ≠ .waiting e n)
    (hforwarding : ∀ e, p = .forwarding e → e.isSerialized → s.asyncMode = false → q.items.finished = q.items.history) :
    Flow s' q := by
  subst hs
  refine ⟨h.running, h.queued, h.pushed, fun r hr => ?_, fun e n he => absurd he (hwaiting e n), hforwarding⟩
  rcases h.requests r hr with hr | ⟨b, hb⟩
  · exact .inl hr
  · exact absurd hb (hold b r)

theorem start (async : Bool) (hidle : s.streaming = .idle) :
    Flow { s with life := .started, asyncMode := async, outputThread := some {}, submitted := [], pushed := [],
                  requests := [] } {} := by
  constructor
  · exact ⟨rfl, rfl⟩
  · show [] = if async then [] else []
    split <;> rfl
  · show [] = if async then [] else []
    split <;> rfl
  · intro r hr
    cases hr
  · intro e n he
    exact absurd (hidle.symm.trans he) (by simp)
  · intro e he
    exact absurd (hidle.symm.trans he) (by simp)

/-- The output thread takes an operation. -/
theorem pop (h : Flow s q) (hq : q.pop = some q') : Flow { s with outputThread := some q' } q' := by
  obtain ⟨hhist, hfin, hrunning⟩ := pop_cases hq
  obtain ⟨hexited, hwakeup⟩ := hrunning h.running.2
  constructor
  · rw [hexited, hwakeup]
    exact h.running
  · rw [hhist]
    exact h.queued
  · rw [hfin]
    exact h.pushed
  · rw [hhist]
    exact h.requests
  · rw [hhist, hfin]
    exact h.waiting
  · rw [hhist, hfin]
    exact h.forwarding

/-- The output thread is through with an operation. -/
theorem ran (h : Flow s q) (hq : q.ran true = some q') {i : FuncItem} (hi : q.items.running = some i) {pushed signalled : List ℕ}
    (hpushed : pushed = s.pushed ++ buffersOf [i])
    (hsignalled : ∀ n ∈ signalled, n ∈ s.signalled ∨ i = .sync n) :
    Flow { s with outputThread := some q', pushed := pushed, signalled := signalled } q' := by
  obtain ⟨i', hi', hexited, hwakeup, hhist, hfin⟩ := ran_cases hq
  obtain rfl := Option.some.inj (hi.symm.trans hi')
  have hmem : i ∈ q.items.history := Fifo.mem_history_of_running hi
  constructor
  · exact ⟨hexited, hwakeup.trans h.running.2⟩
  · rw [hhist]
    exact h.queued
  · show pushed = if s.asyncMode then s.submitted else _
    rw [hpushed, hfin, buffersOf_append, h.pushed]
    by_cases ha : s.asyncMode
    · have hnone := h.queued
      rw [if_pos ha] at hnone
      have hi : buffersOf [i] = [] := by
        refine List.filterMap_eq_nil_iff.mpr fun j hj => ?_
        rw [List.mem_singleton.mp hj]
        exact List.filterMap_eq_nil_iff.mp hnone i hmem
      rw [if_pos ha, if_pos ha, hi, List.append_nil]
    · rw [if_neg ha, if_neg ha]
  · rw [hhist]
    exact h.requests
  · intro e n he
    rw [hhist, hfin]
    obtain ⟨hlast, hfinished⟩ := h.waiting e n he
    refine ⟨hlast, fun hn => ?_⟩
    rcases hsignalled n hn with hn | rfl
    · exact List.mem_append_left _ (hfinished hn)
    · exact List.mem_append_right _ (List.mem_singleton.mpr rfl)
  · intro e he hser ha
    have hline := Fifo.line_eq_nil (h.forwarding e he hser ha)
    have hnone : q.items.running.toList = [] := (List.append_eq_nil_iff.mp hline).1
    rw [hi] at hnone
    cases hnone

/-- A request was handed over, and its end is queued. -/
theorem queueRequest (h : Flow s q) {b r : ℕ} (hs : s.streaming = .queueing b r) :
    Flow { s with streaming := .processing b, outputThread := some (q.queueItem (.inferenceDone r)) }
      (q.queueItem (.inferenceDone r)) := by
  have hnew : buffersOf [FuncItem.inferenceDone r] = [] := rfl
  refine ⟨h.running, ?_, h.pushed, fun r' hr' => ?_, fun e n he => ?_, fun e he => ?_⟩
  · rw [history_queueItem, buffersOf_append, hnew, List.append_nil]
    exact h.queued
  · left
    rw [history_queueItem]
    rcases h.requests r' hr' with hr' | ⟨b', hb'⟩
    · exact List.mem_append_left _ hr'
    · obtain ⟨-, rfl⟩ := Streaming.queueing.inj (hs.symm.trans hb')
      exact List.mem_append_right _ (List.mem_singleton.mpr rfl)
  · cases he
  · cases he

/-- The push of a buffer is queued. -/
theorem queueBuffer (h : Flow s q) {b : ℕ} (hs : s.streaming = .pushing b) (ha : s.asyncMode = false) :
    Flow { s with streaming := .idle, submitted := s.submitted ++ [b],
                  outputThread := some (q.queueItem (.pushBuffer b)) } (q.queueItem (.pushBuffer b)) := by
  have hnew : buffersOf [FuncItem.pushBuffer b] = [b] := rfl
  have hq := h.queued
  have hp := h.pushed
  rw [if_neg (by simp [ha])] at hq hp
  refine ⟨h.running, ?_, ?_, fun r hr => ?_, fun e n he => ?_, fun e he => ?_⟩
  · rw [history_queueItem, buffersOf_append, hnew, hq, if_neg (by simp [ha])]
  · rw [if_neg (by simp [ha])]
    exact hp
  · rcases h.requests r hr with hr | ⟨b', hb'⟩
    · rw [history_queueItem]
      exact .inl (List.mem_append_left _ hr)
    · rw [hs] at hb'
      cases hb'
  · cases he
  · cases he

/-- The streaming thread queues an operation of its own and waits for it. -/
theorem queueSync (h : Flow s q) {e : SinkEvent} (hs : s.streaming = .syncing e)
    (hsyncs : FuncItem.sync s.nextSync ∉ q.items.history) (hsignalled : s.nextSync ∉ s.signalled) :
    Flow { s with streaming := .waiting e s.nextSync, nextSync := s.nextSync + 1,
                  outputThread := some (q.queueItem (.sync s.nextSync)) } (q.queueItem (.sync s.nextSync)) := by
  have hnew : buffersOf [FuncItem.sync s.nextSync] = [] := rfl
  refine ⟨h.running, ?_, h.pushed, fun r hr => ?_, fun e' n he => ?_, fun e he => ?_⟩
  · rw [history_queueItem, buffersOf_append, hnew, List.append_nil]
    exact h.queued
  · rcases h.requests r hr with hr | ⟨b', hb'⟩
    · rw [history_queueItem]
      exact .inl (List.mem_append_left _ hr)
    · rw [hs] at hb'
      cases hb'
  · obtain ⟨rfl, rfl⟩ := Streaming.waiting.inj he
    exact ⟨⟨q.items.history, history_queueItem _ _, hsyncs⟩, fun hn => absurd hn hsignalled⟩
  · cases he

end Flow

/-! ### Steps -/

theorem Inv.queued (h : s.Inv) {q : QueueThread FuncItem} (hq : s.outputThread = some q) {i : FuncItem} {k : ℕ}
    (hk : s.nextSync ≤ k) (hi : ∀ n, i = .sync n → n < k) :
    ∀ q' ∈ some (q.queueItem i), ∀ n, FuncItem.sync n ∈ q'.items.history → n < k := by
  intro q' hq' n hn
  obtain rfl := Option.some.inj hq'
  rw [history_queueItem] at hn
  rcases List.mem_append.mp hn with hn | hn
  · exact Nat.lt_of_lt_of_le (h.syncs q hq n hn) hk
  · exact hi n (List.mem_singleton.mp hn).symm

theorem Inv.streamingGoesOn (h : s.Inv) (hs : s.streamingGoesOn = some s') : s'.Inv := by
  have hlife : s.life = .started := by
    by_contra hne
    unfold GstNvInferServer.streamingGoesOn at hs
    rw [h.idle hne] at hs
    cases hs
  obtain ⟨hstopped, q, hq, hflow⟩ := h.started hlife
  have hinv : ∀ {s'' : GstNvInferServer} {q' : QueueThread FuncItem}, s''.life = s.life → s''.stopped = s.stopped →
      s''.outputThread = some q' → Flow s'' q' →
      (∀ q' ∈ s''.outputThread, ∀ n, FuncItem.sync n ∈ q'.items.history → n < s''.nextSync) →
      (∀ n ∈ s''.signalled, n < s''.nextSync) → s''.Inv := by
    intro s'' q' hl hst hq' hf hsync hsig
    exact ⟨fun _ => ⟨hst.trans hstopped, q', hq', hf⟩, fun hne => absurd (hl.trans hlife) hne, hsync, hsig⟩
  unfold GstNvInferServer.streamingGoesOn at hs
  split at hs
  · rename_i b r hstr
    obtain ⟨q', hq', rfl⟩ := mem_queueOperation hs
    obtain rfl := Option.some.inj (hq.symm.trans hq')
    exact hinv rfl rfl rfl (hflow.queueRequest hstr) (h.queued hq (Nat.le_refl _) (by simp)) h.signalled
  · rename_i b hstr
    split at hs
    · rename_i ha
      obtain rfl := Option.some.inj hs
      refine hinv rfl rfl hq ⟨hflow.running, ?_, ?_, fun r hr => ?_, fun e n he => ?_, fun e he => ?_⟩ h.syncs
        h.signalled
      · show _ = if s.asyncMode then [] else _
        rw [hflow.queued, if_pos ha, if_pos ha]
      · show s.pushed ++ [b] = if s.asyncMode then s.submitted ++ [b] else _
        rw [hflow.pushed, if_pos ha, if_pos ha]
      · rcases hflow.requests r hr with hr | ⟨b', hb'⟩
        · exact .inl hr
        · rw [hstr] at hb'
          cases hb'
      · cases he
      · cases he
    · rename_i ha
      obtain ⟨q', hq', rfl⟩ := mem_queueOperation hs
      obtain rfl := Option.some.inj (hq.symm.trans hq')
      exact hinv rfl rfl rfl (hflow.queueBuffer hstr (by simpa using ha)) (h.queued hq (Nat.le_refl _) (by simp))
        h.signalled
  · rename_i e hstr
    split at hs
    · obtain rfl := Option.some.inj hs
      exact hinv rfl rfl hq (hflow.streaming rfl (by simp [hstr]) (by simp) (by simp)) h.syncs h.signalled
    · rename_i hnot
      obtain rfl := Option.some.inj hs
      refine hinv rfl rfl hq (hflow.streaming rfl (by simp [hstr]) (by simp) fun e' he hser ha => ?_) h.syncs
        h.signalled
      obtain rfl := Streaming.forwarding.inj he
      exact absurd ⟨hser, ha, hstopped⟩ hnot
  · rename_i e hstr
    obtain ⟨q', hq', rfl⟩ := mem_queueOperation hs
    obtain rfl := Option.some.inj (hq.symm.trans hq')
    refine hinv rfl rfl rfl (hflow.queueSync hstr ?_ ?_) (h.queued hq (Nat.le_succ _) fun n hn => ?_)
      fun n hn => Nat.lt_succ_of_lt (h.signalled n hn)
    · exact fun hn => Nat.lt_irrefl _ (h.syncs q hq _ hn)
    · exact fun hn => Nat.lt_irrefl _ (h.signalled _ hn)
    · obtain rfl := FuncItem.sync.inj hn
      exact Nat.lt_succ_self _
  · rename_i e n hstr
    split at hs
    · rename_i hn
      obtain rfl := Option.some.inj hs
      obtain ⟨⟨l, hl, hlast⟩, hfin⟩ := hflow.waiting e n hstr
      refine hinv rfl rfl hq (hflow.streaming rfl (by simp [hstr]) (by simp) fun e' he hser ha => ?_) h.syncs
        h.signalled
      exact Fifo.finished_eq_of_last hl hlast (hfin hn)
    · cases hs
  · rename_i e hstr
    obtain rfl := Option.some.inj hs
    exact hinv rfl rfl hq (hflow.streaming rfl (by simp [hstr]) (by simp) (by simp)) h.syncs h.signalled
  · cases hs

/-- The element is being stopped; nothing is said of its output thread then. -/
theorem Inv.stopping (h : s.Inv) (hlife : s.life ≠ .started) (hlife' : s'.life ≠ .started)
    (hstreaming : s'.streaming = s.streaming) (hsignalled : s'.signalled = s.signalled) (hnext : s.nextSync ≤ s'.nextSync)
    (hsyncs : ∀ q ∈ s'.outputThread, ∀ n, FuncItem.sync n ∈ q.items.history → n < s'.nextSync) : s'.Inv :=
  ⟨fun heq => absurd heq hlife', fun _ => hstreaming.trans (h.idle hlife), hsyncs,
    fun n hn => Nat.lt_of_lt_of_le (h.signalled n (hsignalled ▸ hn)) hnext⟩

theorem Inv.stopGoesOn (h : s.Inv) (hs : s.stopGoesOn = some s') : s'.Inv := by
  have hlife : s.life ≠ .started := by
    intro heq
    unfold GstNvInferServer.stopGoesOn at hs
    rw [heq] at hs
    cases hs
  unfold GstNvInferServer.stopGoesOn at hs
  split at hs
  · split at hs <;> obtain rfl := Option.some.inj hs
    · exact h.stopping hlife (by simp) rfl rfl (Nat.le_refl _) h.syncs
    · exact h.stopping hlife (by simp) rfl rfl (Nat.le_refl _) h.syncs
  · obtain ⟨q, hq, rfl⟩ := mem_queueOperation hs
    refine h.stopping hlife (by simp) rfl rfl (Nat.le_succ _) (h.queued hq (Nat.le_succ _) fun n hn => ?_)
    obtain rfl := FuncItem.sync.inj hn
    exact Nat.lt_succ_self _
  · split at hs
    · obtain rfl := Option.some.inj hs
      exact h.stopping hlife (by simp) rfl rfl (Nat.le_refl _) h.syncs
    · cases hs
  · obtain ⟨q, hq, hs⟩ := Option.bind_eq_some_iff.mp hs
    split at hs
    · obtain rfl := Option.some.inj hs
      exact h.stopping hlife (by simp) rfl rfl (Nat.le_refl _) (by simp)
    · split at hs
      · cases hs
      · obtain rfl := Option.some.inj hs
        refine h.stopping hlife hlife rfl rfl (Nat.le_refl _) fun q' hq' n hn => ?_
        obtain rfl := Option.some.inj hq'
        exact h.syncs q hq n hn
  · obtain rfl := Option.some.inj hs
    exact h.stopping hlife (by simp) rfl rfl (Nat.le_refl _) h.syncs
  · cases hs

/-- The output thread takes an operation, whatever the element is doing. -/
theorem Inv.pop (h : s.Inv) {q q' : QueueThread FuncItem} (hq : s.outputThread = some q) (hpop : q.pop = some q') :
    Inv { s with outputThread := some q' } := by
  refine ⟨fun hlife => ?_, h.idle, fun q'' hq'' n hn => ?_, h.signalled⟩
  · obtain ⟨hstopped, q₀, hq₀, hflow⟩ := h.started hlife
    obtain rfl := Option.some.inj (hq.symm.trans hq₀)
    exact ⟨hstopped, q', rfl, hflow.pop hpop⟩
  · obtain rfl := Option.some.inj hq''
    rw [(pop_cases hpop).1] at hn
    exact h.syncs q hq n hn

theorem Inv.ran (h : s.Inv) (hs : s.ran = some s') : s'.Inv := by
  obtain ⟨q, hq, hs⟩ := Option.bind_eq_some_iff.mp hs
  obtain ⟨q', hran, hs⟩ := Option.bind_eq_some_iff.mp hs
  have hinv : ∀ {i : FuncItem} {pushed signalled : List ℕ}, q.items.running = some i →
      pushed = s.pushed ++ buffersOf [i] → (∀ n ∈ signalled, n ∈ s.signalled ∨ i = .sync n) →
      Inv { s with outputThread := some q', pushed := pushed, signalled := signalled } := by
    intro i pushed signalled hi hpushed hsignalled
    refine ⟨fun hlife => ?_, h.idle, fun q'' hq'' n hn => ?_, fun n hn => ?_⟩
    · obtain ⟨hstopped, q₀, hq₀, hflow⟩ := h.started hlife
      obtain rfl := Option.some.inj (hq.symm.trans hq₀)
      exact ⟨hstopped, q', rfl, hflow.ran hran hi hpushed hsignalled⟩
    · obtain rfl := Option.some.inj hq''
      obtain ⟨-, -, -, -, hhist, -⟩ := ran_cases hran
      rw [hhist] at hn
      exact h.syncs q hq n hn
    · rcases hsignalled n hn with hn | rfl
      · exact h.signalled n hn
      · exact h.syncs q hq n (Fifo.mem_history_of_running hi)
  split at hs
  · rename_i r hi
    split at hs
    · obtain rfl := Option.some.inj hs
      exact hinv hi (List.append_nil _).symm fun n hn => .inl hn
    · cases hs
  · rename_i b hi
    obtain rfl := Option.some.inj hs
    exact hinv hi rfl fun n hn => .inl hn
  · rename_i n hi
    obtain rfl := Option.some.inj hs
    refine hinv hi (List.append_nil _).symm fun k hk => ?_
    rcases List.mem_cons.mp hk with rfl | hk
    · exact .inr rfl
    · exact .inl hk
  · cases hs

/-- The streaming thread begins with something, or gives a buffer up. -/
theorem Inv.streaming (h : s.Inv) {p : Streaming} {k : ℕ} (hlife : s.life = .started)
    (hold : ∀ b r, s.streaming ≠ .queueing b r) (hwaiting : ∀ e n, p ≠ .waiting e n)
    (hforwarding : ∀ e, p ≠ .forwarding e) : Inv { s with streaming := p, currentBatchNum := k } := by
  obtain ⟨hstopped, q, hq, hflow⟩ := h.started hlife
  have hflow' : Flow { s with streaming := p } q :=
    hflow.streaming rfl hold hwaiting fun e he => absurd he (hforwarding e)
  refine ⟨fun _ => ⟨hstopped, q, hq, ?_⟩, fun hne => absurd hlife hne, h.syncs, h.signalled⟩
  exact ⟨hflow'.running, hflow'.queued, hflow'.pushed, hflow'.requests, hflow'.waiting, hflow'.forwarding⟩

theorem Inv.started_of_processing (h : s.Inv) {b : ℕ} (hs : s.streaming = .processing b) : s.life = .started := by
  by_contra hne
  rw [h.idle hne] at hs
  cases hs

theorem inv_step {a : Action} (h : s.Inv) (hok : s.NotRestarted a) (hs : s.step a = some s') : s'.Inv := by
  cases a with
  | start asyncMode ok =>
    dsimp only [step, start] at hs
    split at hs
    · rename_i hlife
      have hidle : s.streaming = .idle := h.idle (by simp [hlife])
      split at hs <;> obtain rfl := Option.some.inj hs
      · refine ⟨fun _ => ⟨hok rfl, {}, rfl, Flow.start asyncMode hidle⟩, fun hne => absurd rfl hne, ?_, h.signalled⟩
        intro q hq n hn
        obtain rfl := Option.some.inj hq
        cases hn
      · exact h
    · cases hs
  | stop =>
    dsimp only [step] at hs
    split at hs
    · rename_i hready
      obtain rfl := Option.some.inj hs
      exact ⟨fun heq => absurd heq (by simp), fun _ => hready.2, h.syncs, h.signalled⟩
    · cases hs
  | submit =>
    dsimp only [step] at hs
    split at hs
    · rename_i hready
      obtain rfl := Option.some.inj hs
      exact h.streaming hready.1 (by simp [hready.2]) (by simp) (by simp)
    · cases hs
  | run ok =>
    dsimp only [step, run] at hs
    split at hs
    · rename_i b hstr
      have hlife := h.started_of_processing hstr
      split at hs <;> obtain rfl := Option.some.inj hs
      · obtain ⟨hstopped, q, hq, hflow⟩ := h.started hlife
        refine ⟨fun _ => ⟨hstopped, q, hq, hflow.running, hflow.queued, hflow.pushed, fun r hr => ?_, by simp, by simp⟩,
          fun hne => absurd hlife hne, h.syncs, h.signalled⟩
        rcases List.mem_append.mp hr with hr | hr
        · rcases hflow.requests r hr with hr | ⟨b', hb'⟩
          · exact .inl hr
          · rw [hstr] at hb'
            cases hb'
        · rw [List.mem_singleton.mp hr]
          exact .inr ⟨b, rfl⟩
      · exact h.streaming hlife (by simp [hstr]) (by simp) (by simp)
    · cases hs
  | processed ok =>
    dsimp only [step, processed] at hs
    split at hs
    · rename_i b hstr
      have hlife := h.started_of_processing hstr
      split at hs <;> obtain rfl := Option.some.inj hs
      · exact h.streaming hlife (by simp [hstr]) (by simp) (by simp)
      · exact h.streaming hlife (by simp [hstr]) (by simp) (by simp)
    · cases hs
  | event e =>
    dsimp only [step] at hs
    split at hs
    · rename_i hready
      obtain rfl := Option.some.inj hs
      exact h.streaming hready.1 (by simp [hready.2]) (by simp) (by simp)
    · cases hs
  | streamingGoesOn => exact h.streamingGoesOn hs
  | stopGoesOn => exact h.stopGoesOn hs
  | complete r =>
    dsimp only [step] at hs
    split at hs
    · obtain rfl := Option.some.inj hs
      refine ⟨fun hlife => ?_, h.idle, h.syncs, h.signalled⟩
      obtain ⟨hstopped, q, hq, hflow⟩ := h.started hlife
      exact ⟨hstopped, q, hq, hflow.running, hflow.queued, hflow.pushed, hflow.requests, hflow.waiting, hflow.forwarding⟩
    · cases hs
  | pop =>
    obtain ⟨q, hq, hs⟩ := Option.bind_eq_some_iff.mp hs
    obtain ⟨q', hpop, rfl⟩ := Option.map_eq_some_iff.mp hs
    exact h.pop hq hpop
  | ran => exact h.ran hs

/-- In every run in which the element is not started again after it was stopped, a
serialized event goes on behind every buffer that was submitted before it. -/
theorem inOrder_run (h : Reach step NotRestarted Started s) : s.InOrder := by
  refine Inv.inOrder (h.invariant (I := Inv) ?_ fun s a s' hi hok hs => inv_step hi hok hs)
  rintro s rfl
  exact ⟨by simp, by simp, by simp, by simp⟩

/-- A buffer with one request, then an event. -/
def oneBuffer : List Action :=
  [.start false true, .submit, .run true, .streamingGoesOn, .processed true, .streamingGoesOn, .event (.other true),
    .streamingGoesOn, .streamingGoesOn, .pop, .complete 0, .ran, .pop, .ran, .pop, .ran, .streamingGoesOn]

theorem inOrder_run_oneBuffer : ∃ s : GstNvInferServer, Reach step NotRestarted Started s ∧
    s.streaming = .forwarding (.other true) ∧ s.submitted = [1] ∧ s.pushed = [1] ∧ s.InOrder := by
  have hinit : Started {} := rfl
  have hreach : Reach step NotRestarted Started _ := Reach.get_exec (l := oneBuffer) hinit (by decide +kernel)
  exact ⟨_, hreach, by decide +kernel, by decide +kernel, by decide +kernel, inOrder_run hreach⟩

/-- The element is stopped and started again, then comes a buffer and an event. -/
def restarted : List Action :=
  [.start false true, .stop, .stopGoesOn, .stopGoesOn, .pop, .ran, .stopGoesOn, .stopGoesOn, .pop, .stopGoesOn,
    .stopGoesOn, .start false true, .submit, .processed true, .streamingGoesOn, .event (.other true), .streamingGoesOn]

/-- After a restart an event overtakes the buffer before it. -/
theorem overtaken : ∃ s : GstNvInferServer, Reach step anyStep Started s ∧
    s.streaming = .forwarding (.other true) ∧ s.submitted = [1] ∧ s.pushed = [] ∧ ¬ s.InOrder := by
  have hinit : Started {} := rfl
  refine ⟨_, Reach.get_exec (l := restarted) hinit (by decide +kernel), by decide +kernel, by decide +kernel, by decide +kernel, fun h => ?_⟩
  have hpushed := (h (.other true) (by decide +kernel) rfl).1
  revert hpushed
  decide +kernel

end GstNvInferServer
end InferServer
end DeepStream
