/-
# The order in which gst-nvdspostprocess passes things on

`ProcessBuffer` puts the buffers of the streaming thread in `m_processQ`; the output
thread takes them out, works on them without the lock and pushes them downstream.
Events are forwarded by the caller. Only at an EOS `HandleEvent` first sets `m_stop`
and waits for the output thread to have returned, which it does when the queue is
empty. `m_stop` is never cleared.

A section between two operations on `m_processLock` is one step. The destructor
waits for an empty queue; it runs after the streaming thread has left the element.
What the output thread does to the metadata of a buffer is in `Config`.
-/
import DeepStream.Lib.Fifo
import DeepStream.Lib.Inevitable

namespace DeepStream
namespace PostProcess

/-! ### Items -/

inductive GstEventType where
  | eos | streamEos | padAdded | padDeleted | streamStart | caps | segment | flushStart | flushStop
  | other (serialized : Bool)
  deriving DecidableEq, Repr

/-- Events that are ordered with the buffers. -/
def GstEventType.serialized : GstEventType → Bool
  | .flushStart => false
  | .other serialized => serialized
  | _ => true

/-- What arrives at the sink pad, and what is passed on. -/
inductive Item where
  | buffer (inbuf : ℕ)
  | event (type : GstEventType)
  deriving DecidableEq, Repr

def Item.serialized : Item → Bool
  | .buffer _ => true
  | .event type => type.serialized

/-! ### The state -/

/-- Where the output thread is: about to take the lock, in `m_processCV.wait`, at
work on the buffer that it took, or returned. -/
inductive OutputPc where
  | locking
  | waiting
  | working
  | returned
  deriving DecidableEq, Repr

/-- The streaming thread is in the loop of `HandleEvent` that waits for the output thread. -/
inductive StreamingPc where
  | idle
  | awaitingStop
  deriving DecidableEq, Repr

inductive DestructorPc where
  | notCalled
  | awaitingEmpty
  | joining
  | done
  deriving DecidableEq, Repr

/-- `arrived` and `passed` log the items: those accepted, in their order, and those
passed on downstream. -/
structure State where
  processQ : Fifo ℕ := {}
  stop : Bool := false
  outputthreadStopped : Bool := false
  output : OutputPc := .locking
  streaming : StreamingPc := .idle
  destructor : DestructorPc := .notCalled
  arrived : List Item := []
  passed : List Item := []
  deriving DecidableEq, Repr

namespace State

variable (s : State)

/-- `m_processCV.notify_all`. -/
def notifyAll : State := if s.output = .waiting then { s with output := .locking } else s

def pass (i : Item) : State := { s with passed := s.passed ++ [i] }

def arrive (i : Item) : State := { s with arrived := s.arrived ++ [i] }

end State

/-! ### Steps -/

inductive Action where
  /-- A buffer arrives; `mapped` is what `gst_buffer_map` answers. -/
  | processBuffer (inbuf : ℕ) (mapped : Bool)
  | sinkEvent (type : GstEventType)
  /-- The loop of `HandleEvent` sees `outputthread_stopped`. -/
  | sawStopped
  /-- The output thread goes on with the lock. -/
  | outputLocked
  | pushed
  | spuriousWakeup
  | destroy
  | sawEmpty
  | joined
  deriving DecidableEq, Repr

namespace State

variable (s : State)

/-- `submit_input_buffer`: `Buffer_Error` when the buffer cannot be mapped. -/
def processBuffer (inbuf : ℕ) (mapped : Bool) : State :=
  if mapped then ({ s with processQ := s.processQ.push inbuf }.arrive (.buffer inbuf)).notifyAll else s

/-- `sink_event`: what `HandleEvent` does up to its wait, or all of it with the forwarding. -/
def sinkEvent (type : GstEventType) : State :=
  if type = .eos then ({ s with stop := true, streaming := .awaitingStop }.arrive (.event type)).notifyAll
  else if type.serialized then (s.arrive (.event type)).pass (.event type)
  else s.pass (.event type)

/-- `OutputThread` from the head of its loop to where it gives the lock up. -/
def outputLocked : State :=
  match s.processQ.take with
  | some q => { s with processQ := q, output := .working }
  | none => if s.stop then { s with outputthreadStopped := true, output := .returned } else { s with output := .waiting }

end State

def step (s : State) : Action → Option State
  | .processBuffer inbuf mapped =>
    if s.streaming = .idle ∧ s.destructor = .notCalled then some (s.processBuffer inbuf mapped) else none
  | .sinkEvent type =>
    if (type.serialized → s.streaming = .idle) ∧ s.destructor = .notCalled then some (s.sinkEvent type) else none
  | .sawStopped =>
    if s.streaming = .awaitingStop ∧ s.outputthreadStopped then some ({ s with streaming := .idle }.pass (.event .eos))
    else none
  | .outputLocked => if s.output = .locking then some s.outputLocked else none
  | .pushed =>
    match s.output, s.processQ.running, s.processQ.finish with
    | .working, some inbuf, some q => some ({ s with processQ := q, output := .locking }.pass (.buffer inbuf))
    | _, _, _ => none
  | .spuriousWakeup => if s.output = .waiting then some { s with output := .locking } else none
  | .destroy =>
    if s.streaming = .idle ∧ s.destructor = .notCalled then some { s with destructor := .awaitingEmpty } else none
  | .sawEmpty =>
    if s.destructor = .awaitingEmpty ∧ s.processQ.waiting = [] then
      some { s with stop := true, destructor := .joining }.notifyAll
    else none
  | .joined => if s.destructor = .joining ∧ s.output = .returned then some { s with destructor := .done } else none

def Started (s : State) : Prop := s = {}

/-! ### The property -/

def Item.buffer? : Item → Option ℕ
  | .buffer inbuf => some inbuf
  | .event _ => none

def buffersOf (l : List Item) : List ℕ := l.filterMap Item.buffer?

/-- Steps of the output thread, which only need the lock. -/
def ByOutput (_ : State) (a : Action) : Prop := a = .outputLocked ∨ a = .pushed

/-- The order of the stream is kept, and what is in the queue is going to be pushed. -/
structure OrderKept (s : State) : Prop where
  /-- Buffers and serialized events are passed on once, in the order of their arrival. -/
  inOrder : s.passed.filter Item.serialized <+: s.arrived
  notStuck : s.processQ.waiting ≠ [] → s.output ≠ .returned
  /-- The output thread gets through with the queue. -/
  drains : ∃ s', Reach step ByOutput (· = s) s' ∧ s'.processQ.waiting = [] ∧ buffersOf s'.passed = buffersOf s.arrived

/-- Only an EOS comes while there are buffers in the element, and no buffer comes
after an EOS. -/
def StepOk (s : State) : Action → Prop
  | .processBuffer _ mapped => mapped = true → s.stop = false
  | .sinkEvent type => type.serialized = true → type = .eos ∨ s.processQ.line = []
  | _ => True

instance : ∀ s a, Decidable (StepOk s a)
  | s, .processBuffer _ mapped => inferInstanceAs (Decidable (mapped = true → s.stop = false))
  | s, .sinkEvent type => inferInstanceAs (Decidable (type.serialized = true → type = .eos ∨ s.processQ.line = []))
  | _, .sawStopped | _, .outputLocked | _, .pushed | _, .spuriousWakeup | _, .destroy | _, .sawEmpty | _, .joined =>
    inferInstanceAs (Decidable True)

/-! ### The invariant -/

namespace State

variable {s s' : State}

/-- What is still to be passed on: the buffers, then the EOS that waits for them. -/
def pending (s : State) : List Item :=
  s.processQ.line.map .buffer ++ if s.streaming = .awaitingStop then [.event .eos] else []

/-- What was passed on and what is pending is what arrived. -/
structure Logs (s : State) : Prop where
  inOrder : s.passed.filter Item.serialized ++ s.pending = s.arrived
  pushed : buffersOf s.passed = s.processQ.finished

/-- The threads are where the queue and the flags say. -/
structure Threads (s : State) : Prop where
  working : s.output = .working ↔ s.processQ.running.isSome
  waiting : s.output = .waiting → s.processQ.waiting = [] ∧ s.stop = false
  returned : s.output = .returned → s.processQ.waiting = [] ∧ s.stop = true
  stopped : s.outputthreadStopped = true ↔ s.output = .returned
  awaiting : s.streaming = .awaitingStop → s.stop = true

/-- The logs and the destructor do not matter to the threads. -/
theorem Threads.of_eq (h : s.Threads) (hqueue : s'.processQ = s.processQ) (houtput : s'.output = s.output)
    (hstop : s'.stop = s.stop) (hstopped : s'.outputthreadStopped = s.outputthreadStopped)
    (hstreaming : s'.streaming = s.streaming) : s'.Threads := by
  constructor
  · rw [houtput, hqueue]
    exact h.working
  · rw [houtput, hqueue, hstop]
    exact h.waiting
  · rw [houtput, hqueue, hstop]
    exact h.returned
  · rw [hstopped, houtput]
    exact h.stopped
  · rw [hstreaming, hstop]
    exact h.awaiting

structure Inv (s : State) : Prop where
  logs : s.Logs
  threads : s.Threads

@[simp] theorem passed_notifyAll : s.notifyAll.passed = s.passed := by unfold notifyAll; split <;> rfl
@[simp] theorem arrived_notifyAll : s.notifyAll.arrived = s.arrived := by unfold notifyAll; split <;> rfl
@[simp] theorem processQ_notifyAll : s.notifyAll.processQ = s.processQ := by unfold notifyAll; split <;> rfl
@[simp] theorem streaming_notifyAll : s.notifyAll.streaming = s.streaming := by unfold notifyAll; split <;> rfl

theorem Logs.notifyAll (h : s.Logs) : s.notifyAll.Logs := by
  constructor
  · simpa [pending] using h.inOrder
  · simpa using h.pushed

/-- After a notification the output thread does not wait. -/
theorem Threads.notifyAll (hworking : s.output = .working ↔ s.processQ.running.isSome)
    (hreturned : s.output = .returned → s.processQ.waiting = [] ∧ s.stop = true)
    (hstopped : s.outputthreadStopped = true ↔ s.output = .returned)
    (hawaiting : s.streaming = .awaitingStop → s.stop = true) : s.notifyAll.Threads := by
  unfold State.notifyAll
  by_cases hw : s.output = .waiting
  · rw [if_pos hw]
    have hidle : ¬ s.processQ.running.isSome := by
      rw [← hworking, hw]
      simp
    constructor
    · simpa using hidle
    · intro h
      cases h
    · intro h
      cases h
    · show s.outputthreadStopped = true ↔ OutputPc.locking = .returned
      rw [hstopped, hw]
      simp
    · exact hawaiting
  · rw [if_neg hw]
    exact ⟨hworking, fun h => absurd h hw, hreturned, hstopped, hawaiting⟩

theorem Inv.processBuffer (h : s.Inv) (hidle : s.streaming = .idle) {mapped : Bool}
    (hstop : mapped = true → s.stop = false) (inbuf : ℕ) : (s.processBuffer inbuf mapped).Inv := by
  unfold State.processBuffer
  split
  · rename_i hmapped
    constructor
    · refine Logs.notifyAll ⟨?_, h.logs.pushed⟩
      show s.passed.filter Item.serialized ++ _ = s.arrived ++ [.buffer inbuf]
      rw [← h.logs.inOrder, List.append_assoc]
      congr 1
      simp [pending, arrive, hidle, Fifo.push, Fifo.line]
    · refine Threads.notifyAll h.threads.working (fun hret => ?_) h.threads.stopped h.threads.awaiting
      have hyes := (h.threads.returned hret).2
      rw [hstop hmapped] at hyes
      cases hyes
  · exact h

theorem Inv.sinkEvent (h : s.Inv) {type : GstEventType} (hidle : type.serialized = true → s.streaming = .idle)
    (hline : type.serialized = true → type = .eos ∨ s.processQ.line = []) : (s.sinkEvent type).Inv := by
  unfold State.sinkEvent
  by_cases heos : type = .eos
  · subst heos
    rw [if_pos rfl]
    have hidle' := hidle rfl
    constructor
    · refine Logs.notifyAll ⟨?_, h.logs.pushed⟩
      show s.passed.filter Item.serialized ++ _ = s.arrived ++ [.event .eos]
      rw [← h.logs.inOrder, List.append_assoc]
      congr 1
      simp [pending, arrive, hidle']
    · exact Threads.notifyAll h.threads.working (fun hret => ⟨(h.threads.returned hret).1, rfl⟩) h.threads.stopped
        fun _ => rfl
  · rw [if_neg heos]
    by_cases hser : type.serialized = true
    · rw [if_pos hser]
      have hnil : s.pending = [] := by
        simp [pending, (hline hser).resolve_left heos, hidle hser]
      have hall := h.logs.inOrder
      rw [hnil, List.append_nil] at hall
      constructor
      · constructor
        · show (s.passed ++ [Item.event type]).filter Item.serialized ++ s.pending = s.arrived ++ [.event type]
          rw [hnil, List.append_nil, List.filter_append, hall]
          simp [Item.serialized, hser]
        · show buffersOf (s.passed ++ [Item.event type]) = s.processQ.finished
          rw [← h.logs.pushed]
          simp [buffersOf, Item.buffer?]
      · exact h.threads.of_eq rfl rfl rfl rfl rfl
    · rw [if_neg hser]
      constructor
      · constructor
        · show (s.passed ++ [Item.event type]).filter Item.serialized ++ s.pending = s.arrived
          rw [← h.logs.inOrder]
          simp [Item.serialized, hser]
        · show buffersOf (s.passed ++ [Item.event type]) = s.processQ.finished
          rw [← h.logs.pushed]
          simp [buffersOf, Item.buffer?]
      · exact h.threads.of_eq rfl rfl rfl rfl rfl

/-- The EOS is forwarded when all buffers are. -/
theorem Inv.sawStopped (h : s.Inv) (hawaiting : s.streaming = .awaitingStop) (hstopped : s.outputthreadStopped = true) :
    ({ s with streaming := .idle }.pass (.event .eos)).Inv := by
  have hret := h.threads.stopped.mp hstopped
  have hline : s.processQ.line = [] := by
    have hrunning : s.processQ.running = none := by
      rw [← Option.not_isSome_iff_eq_none, ← h.threads.working, hret]
      simp
    simp [Fifo.line, hrunning, (h.threads.returned hret).1]
  constructor
  · constructor
    · show (s.passed ++ [Item.event .eos]).filter Item.serialized ++ (s.processQ.line.map .buffer ++ []) = s.arrived
      rw [← h.logs.inOrder, pending, hline, hawaiting]
      simp [Item.serialized, GstEventType.serialized]
    · show buffersOf (s.passed ++ [Item.event .eos]) = s.processQ.finished
      rw [← h.logs.pushed]
      simp [buffersOf, Item.buffer?]
  · exact ⟨h.threads.working, h.threads.waiting, h.threads.returned, h.threads.stopped, fun hc => by cases hc⟩

theorem Inv.outputLocked (h : s.Inv) (hlocking : s.output = .locking) : s.outputLocked.Inv := by
  have hrunning : s.processQ.running = none := by
    rw [← Option.not_isSome_iff_eq_none, ← h.threads.working, hlocking]
    simp
  unfold State.outputLocked
  rcases htake : s.processQ.take with _ | q
  · have hempty : s.processQ.waiting = [] := by
      rcases hw : s.processQ.waiting with _ | ⟨i, rest⟩
      · rfl
      · simp [Fifo.take, hrunning, hw] at htake
    have hnot : s.outputthreadStopped = false := by
      rw [← Bool.not_eq_true, h.threads.stopped, hlocking]
      simp
    dsimp only
    by_cases hstop : s.stop = true
    · rw [if_pos hstop]
      refine ⟨⟨h.logs.inOrder, h.logs.pushed⟩, ?_⟩
      constructor
      · show OutputPc.returned = .working ↔ s.processQ.running.isSome
        simp [hrunning]
      · intro hc
        cases hc
      · exact fun _ => ⟨hempty, hstop⟩
      · exact iff_of_true rfl rfl
      · exact h.threads.awaiting
    · rw [if_neg hstop]
      refine ⟨⟨h.logs.inOrder, h.logs.pushed⟩, ?_⟩
      constructor
      · show OutputPc.waiting = .working ↔ s.processQ.running.isSome
        simp [hrunning]
      · exact fun _ => ⟨hempty, by simpa using hstop⟩
      · intro hc
        cases hc
      · show s.outputthreadStopped = true ↔ OutputPc.waiting = .returned
        simp [hnot]
      · exact h.threads.awaiting
  · obtain ⟨i, -, hwaiting, hq⟩ := Fifo.take_eq_some htake
    obtain ⟨hhistory, hfinished⟩ := Fifo.history_take htake
    have hline : q.line = s.processQ.line := by
      simpa [Fifo.history, hfinished] using hhistory
    have hnot : s.outputthreadStopped = false := by
      rw [← Bool.not_eq_true, h.threads.stopped, hlocking]
      simp
    constructor
    · constructor
      · show _ ++ (q.line.map Item.buffer ++ _) = _
        rw [hline]
        exact h.logs.inOrder
      · exact h.logs.pushed.trans hfinished.symm
    · constructor
      · rw [hq]
        exact iff_of_true rfl rfl
      · intro hc
        cases hc
      · intro hc
        cases hc
      · show s.outputthreadStopped = true ↔ OutputPc.working = .returned
        simp [hnot]
      · exact h.threads.awaiting

theorem Inv.pushed (h : s.Inv) (hworking : s.output = .working) {inbuf : ℕ} (hrunning : s.processQ.running = some inbuf)
    {q : Fifo ℕ} (hq : s.processQ.finish = some q) :
    ({ s with processQ := q, output := .locking }.pass (.buffer inbuf)).Inv := by
  have hnot : s.outputthreadStopped = false := by
    rw [← Bool.not_eq_true, h.threads.stopped, hworking]
    simp
  obtain ⟨i, hi, rfl⟩ := Option.map_eq_some_iff.mp hq
  obtain rfl : i = inbuf := Option.some.inj (hi.symm.trans hrunning)
  constructor
  · constructor
    · show (s.passed ++ [Item.buffer i]).filter Item.serialized ++ (s.processQ.waiting.map Item.buffer ++
        if s.streaming = .awaitingStop then [Item.event .eos] else []) = s.arrived
      rw [← h.logs.inOrder, pending, Fifo.line, hi, List.filter_append, List.append_assoc]
      rfl
    · show buffersOf (s.passed ++ [Item.buffer i]) = s.processQ.finished ++ [i]
      rw [← h.logs.pushed]
      simp [buffersOf, Item.buffer?]
  · constructor
    · exact iff_of_false (fun hc => by cases hc) (fun hc => by cases hc)
    · intro hc
      cases hc
    · intro hc
      cases hc
    · show s.outputthreadStopped = true ↔ OutputPc.locking = .returned
      simp [hnot]
    · exact h.threads.awaiting

theorem Inv.step (h : s.Inv) {a : Action} (hok : StepOk s a) (hs : PostProcess.step s a = some s') : s'.Inv := by
  unfold PostProcess.step at hs
  split at hs
  · split at hs
    · rename_i hc
      obtain rfl := Option.some.inj hs
      exact h.processBuffer hc.1 hok _
    · cases hs
  · split at hs
    · rename_i hc
      obtain rfl := Option.some.inj hs
      exact h.sinkEvent hc.1 hok
    · cases hs
  · split at hs
    · rename_i hc
      obtain rfl := Option.some.inj hs
      exact h.sawStopped hc.1 hc.2
    · cases hs
  · split at hs
    · rename_i hc
      obtain rfl := Option.some.inj hs
      exact h.outputLocked hc
    · cases hs
  · split at hs
    · rename_i hworking hrunning hq
      obtain rfl := Option.some.inj hs
      exact h.pushed hworking hrunning hq
    · cases hs
  -- a wake-up is a notification of which nobody knows
  · split at hs
    · rename_i hc
      obtain rfl := Option.some.inj hs
      have hwoken : { s with output := .locking } = s.notifyAll := by rw [State.notifyAll, if_pos hc]
      rw [hwoken]
      exact ⟨h.logs.notifyAll, Threads.notifyAll h.threads.working h.threads.returned h.threads.stopped h.threads.awaiting⟩
    · cases hs
  · split at hs
    · obtain rfl := Option.some.inj hs
      exact ⟨⟨h.logs.inOrder, h.logs.pushed⟩, h.threads.of_eq rfl rfl rfl rfl rfl⟩
    · cases hs
  · split at hs
    · obtain rfl := Option.some.inj hs
      refine ⟨Logs.notifyAll ⟨h.logs.inOrder, h.logs.pushed⟩, Threads.notifyAll h.threads.working ?_ h.threads.stopped ?_⟩
      · exact fun hret => ⟨(h.threads.returned hret).1, rfl⟩
      · exact fun _ => rfl
    · cases hs
  · split at hs
    · obtain rfl := Option.some.inj hs
      exact ⟨⟨h.logs.inOrder, h.logs.pushed⟩, h.threads.of_eq rfl rfl rfl rfl rfl⟩
    · cases hs

theorem Inv.started : Inv {} := by
  refine ⟨⟨rfl, rfl⟩, ?_⟩
  constructor <;> simp

/-! ### The queue is emptied -/

/-- The buffer that the output thread works on is pushed. -/
theorem Inv.pushes (h : s.Inv) (hworking : s.output = .working) :
    ∃ s', Reach PostProcess.step ByOutput (· = s) s' ∧ s'.Inv ∧ s'.output = .locking ∧
      s'.processQ.waiting = s.processQ.waiting ∧ s'.arrived = s.arrived := by
  obtain ⟨inbuf, hrunning⟩ := Option.isSome_iff_exists.mp (h.threads.working.mp hworking)
  obtain ⟨q, hq⟩ : ∃ q, s.processQ.finish = some q := by
    unfold Fifo.finish
    rw [hrunning]
    exact ⟨_, rfl⟩
  have hstep : PostProcess.step s .pushed =
      some ({ s with processQ := q, output := .locking }.pass (.buffer inbuf)) := by
    simp only [PostProcess.step, hworking, hrunning, hq]
  refine ⟨_, .step (.init rfl) (.inr rfl) hstep, h.pushed hworking hrunning hq, rfl, ?_, rfl⟩
  obtain ⟨i, hi, rfl⟩ := Option.map_eq_some_iff.mp hq
  rfl

/-- The output thread takes the front buffer. -/
theorem Inv.takes (h : s.Inv) (hnot : s.output ≠ .working) {i : ℕ} {rest : List ℕ}
    (hw : s.processQ.waiting = i :: rest) :
    ∃ s', Reach PostProcess.step ByOutput (· = s) s' ∧ s'.Inv ∧ s'.output = .working ∧
      s'.processQ.waiting = rest ∧ s'.arrived = s.arrived := by
  have hne : s.processQ.waiting ≠ [] := by simp [hw]
  have hrunning : s.processQ.running = none := by
    rw [← Option.not_isSome_iff_eq_none, ← h.threads.working]
    exact hnot
  -- it does not wait, and it has not returned
  have hlocking : s.output = .locking := by
    rcases ho : s.output
    · rfl
    · exact absurd (h.threads.waiting ho).1 hne
    · exact absurd ho hnot
    · exact absurd (h.threads.returned ho).1 hne
  have htake : s.processQ.take = some { s.processQ with waiting := rest, running := some i } := by
    unfold Fifo.take
    rw [hrunning, hw]
  have hout : s.outputLocked =
      { s with processQ := { s.processQ with waiting := rest, running := some i }, output := .working } := by
    rw [State.outputLocked, htake]
  refine ⟨s.outputLocked, .step (.init rfl) (.inl rfl) (if_pos hlocking), h.outputLocked hlocking, ?_⟩
  rw [hout]
  exact ⟨rfl, rfl, rfl⟩

/-- By induction on the length of the queue. -/
theorem Inv.drains_idle : ∀ (n : ℕ) {s : State}, s.Inv → s.processQ.waiting.length = n → s.output ≠ .working →
    ∃ s', Reach PostProcess.step ByOutput (· = s) s' ∧ s'.Inv ∧ s'.processQ.line = [] ∧ s'.arrived = s.arrived
  | 0, s, h, hn, hnot => by
    have hrunning : s.processQ.running = none := by
      rw [← Option.not_isSome_iff_eq_none, ← h.threads.working]
      exact hnot
    have hw : s.processQ.waiting = [] := List.length_eq_zero_iff.mp hn
    exact ⟨s, .init rfl, h, by simp [Fifo.line, hrunning, hw], rfl⟩
  | n + 1, s, h, hn, hnot => by
    obtain ⟨i, rest, hw⟩ := List.exists_cons_of_ne_nil (List.ne_nil_of_length_eq_add_one hn)
    obtain ⟨s₁, hr₁, h₁, hworking, hw₁, ha₁⟩ := h.takes hnot hw
    obtain ⟨s₂, hr₂, h₂, hlocking, hw₂, ha₂⟩ := h₁.pushes hworking
    have hlen : s₂.processQ.waiting.length = n := by
      rw [hw₂, hw₁]
      rw [hw, List.length_cons] at hn
      omega
    obtain ⟨s₃, hr₃, h₃, hline, ha₃⟩ := Inv.drains_idle n h₂ hlen (by simp [hlocking])
    exact ⟨s₃, (hr₁.trans hr₂).trans hr₃, h₃, hline, by rw [ha₃, ha₂, ha₁]⟩

theorem Inv.drains (h : s.Inv) :
    ∃ s', Reach PostProcess.step ByOutput (· = s) s' ∧ s'.Inv ∧ s'.processQ.line = [] ∧ s'.arrived = s.arrived := by
  by_cases hworking : s.output = .working
  · obtain ⟨s₁, hr₁, h₁, hlocking, -, ha₁⟩ := h.pushes hworking
    obtain ⟨s₂, hr₂, h₂, hline, ha₂⟩ := Inv.drains_idle _ h₁ rfl (by simp [hlocking])
    exact ⟨s₂, hr₁.trans hr₂, h₂, hline, by rw [ha₂, ha₁]⟩
  · exact Inv.drains_idle _ h rfl hworking

/-- The buffers that arrived are those pushed and those in the element. -/
theorem Logs.buffersOf_arrived (h : s.Logs) : buffersOf s.arrived = s.processQ.finished ++ s.processQ.line := by
  have hser : ∀ l : List Item, buffersOf (l.filter Item.serialized) = buffersOf l := by
    intro l
    unfold buffersOf
    rw [List.filterMap_filter]
    refine List.filterMap_congr fun i _ => ?_
    rcases i with inbuf | type
    · rfl
    · simp [Item.buffer?]
  have hline : ∀ l : List ℕ, buffersOf (l.map .buffer) = l := by
    intro l
    unfold buffersOf
    rw [List.filterMap_map]
    exact List.filterMap_some
  have heos : buffersOf (if s.streaming = .awaitingStop then [Item.event .eos] else []) = [] := by
    split
    · rfl
    · rfl
  calc buffersOf s.arrived = buffersOf (s.passed.filter Item.serialized ++ s.pending) := by rw [h.inOrder]
    _ = buffersOf s.passed ++ buffersOf s.pending := by
      rw [buffersOf, List.filterMap_append]
      exact congrArg (· ++ _) (hser s.passed)
    _ = s.processQ.finished ++ s.processQ.line := by
      rw [h.pushed, pending, buffersOf, List.filterMap_append]
      exact congrArg _ ((congrArg₂ _ (hline s.processQ.line) heos).trans (List.append_nil _))

end State

/-! ### The property -/

open State

theorem State.Inv.orderKept {s : State} (h : s.Inv) : OrderKept s := by
  constructor
  · rw [← h.logs.inOrder]
    exact List.prefix_append _ _
  · exact fun hw hret => hw (h.threads.returned hret).1
  · obtain ⟨s', hr, h', hline, ha⟩ := h.drains
    refine ⟨s', hr, (List.append_eq_nil_iff.mp hline).2, ?_⟩
    rw [h'.logs.pushed, ← ha, h'.logs.buffersOf_arrived, hline, List.append_nil]

/-- The order of the stream is kept in every run in which no event but an EOS comes
while there are buffers in the element, and no buffer after an EOS. -/
theorem orderKept_run {s : State} (h : Reach step StepOk Started s) : OrderKept s := by
  have hinv : s.Inv := by
    refine Reach.invariant (I := State.Inv) ?_ (fun _ _ _ hi hok hs => hi.step hok hs) h
    intro s₀ h₀
    rw [h₀]
    exact Inv.started
  exact hinv.orderKept

/-- Two buffers, an event that is not ordered with them, and an EOS. -/
def twoBuffers : List Action :=
  [.sinkEvent .caps, .sinkEvent .segment, .processBuffer 7 true, .outputLocked, .processBuffer 8 true,
    .sinkEvent .flushStart, .sinkEvent .eos, .pushed, .outputLocked, .pushed, .outputLocked, .sawStopped,
    .destroy, .sawEmpty, .joined]

theorem orderKept_run_twoBuffers : ∃ s, Reach step StepOk Started s ∧
    s.passed = [.event .caps, .event .segment, .event .flushStart, .buffer 7, .buffer 8, .event .eos] ∧
    s.destructor = .done ∧ OrderKept s := by
  have hinit : Started {} := rfl
  have hreach : Reach step StepOk Started _ := Reach.get_exec (l := twoBuffers) hinit (by decide +kernel)
  exact ⟨_, hreach, by decide +kernel, by decide +kernel, orderKept_run hreach⟩

/-- The EOS of a stream is forwarded before the buffer that came before it. -/
theorem streamEosOvertakes : ∃ s, Reach step anyStep Started s ∧ ¬ OrderKept s := by
  have hinit : Started {} := rfl
  have hreach : Reach step anyStep Started _ :=
    Reach.get_exec (l := [.processBuffer 7 true, .sinkEvent .streamEos]) hinit (by decide +kernel)
  refine ⟨_, hreach, fun h => ?_⟩
  have hfirst := h.inOrder
  revert hfirst
  decide +kernel

/-- A buffer after an EOS stays in the queue. -/
example : ((exec step anyStep {} [.sinkEvent .eos, .outputLocked, .sawStopped, .sinkEvent .streamStart,
    .processBuffer 7 true]).map fun s => (s.processQ.waiting, s.output)) = some ([7], .returned) := by decide +kernel

/-! ### The element can be closed -/

/-- Nothing more comes to the element. -/
def Closing (_ : State) : Action → Prop
  | .outputLocked | .pushed | .sawStopped | .sawEmpty | .joined => True
  | _ => False

def OutputPc.todo : OutputPc → ℕ
  | .locking | .working => 1
  | .waiting | .returned => 0

def StreamingPc.todo : StreamingPc → ℕ
  | .idle => 0
  | .awaitingStop => 1

/-- The destructor wakes the output thread up once more. -/
def DestructorPc.todo : DestructorPc → ℕ
  | .awaitingEmpty => 3
  | .joining => 1
  | .notCalled | .done => 0

namespace State

variable {s s' : State}

def todo (s : State) : ℕ :=
  s.processQ.todo + s.output.todo + s.streaming.todo + s.destructor.todo

@[simp] theorem stop_notifyAll : s.notifyAll.stop = s.stop := by unfold notifyAll; split <;> rfl
@[simp] theorem destructor_notifyAll : s.notifyAll.destructor = s.destructor := by unfold notifyAll; split <;> rfl

theorem output_notifyAll : s.notifyAll.output.todo ≤ 1 := by
  unfold notifyAll
  split
  · exact Nat.le_refl 1
  · rcases s.output <;> decide

/-- The destructor joins the output thread after it has told it to stop. -/
def Joins (s : State) : Prop := s.destructor = .joining → s.stop = true

theorem Joins.step (h : s.Joins) {a : Action} (hs : PostProcess.step s a = some s') : s'.Joins := by
  unfold PostProcess.step at hs
  rcases a with _ | _ | _ | _ | _ | _ | _ | _ | _ <;> dsimp only at hs <;> split at hs <;> cases hs
  · unfold processBuffer
    split
    · simpa [Joins, arrive] using h
    · exact h
  · unfold Joins sinkEvent arrive pass
    split
    · simp
    · split <;> exact h
  · exact h
  · unfold Joins outputLocked
    split
    · exact h
    · split <;> exact h
  · exact h
  · exact h
  · intro hc
    cases hc
  · simp [Joins]
  · intro hc
    cases hc

/-- Whatever is done takes away from what is to be done. -/
theorem todo_lt {a : Action} (hok : Closing s a) (hs : PostProcess.step s a = some s') :
    s'.todo < s.todo ∧ s'.arrived = s.arrived ∧ (s'.destructor = .notCalled ↔ s.destructor = .notCalled) := by
  unfold PostProcess.step at hs
  rcases a with _ | _ | _ | _ | _ | _ | _ | _ | _ <;> first | exact hok.elim | (dsimp only at hs; split at hs <;> cases hs)
  · rename_i hc
    refine ⟨?_, rfl, Iff.rfl⟩
    simp [todo, pass, hc.1, StreamingPc.todo]
  · rename_i hc
    unfold outputLocked
    rcases htake : s.processQ.take with _ | q
    · dsimp only
      split <;> exact ⟨by simp [todo, hc, OutputPc.todo], rfl, Iff.rfl⟩
    · have htodo := Fifo.todo_take htake
      refine ⟨?_, rfl, Iff.rfl⟩
      simp only [todo, hc, OutputPc.todo]
      omega
  · rename_i hw _ hq
    have htodo := Fifo.todo_finish hq
    refine ⟨?_, rfl, Iff.rfl⟩
    simp only [todo, pass, hw, OutputPc.todo]
    omega
  · rename_i hc
    have hle := output_notifyAll (s := { s with stop := true, destructor := .joining })
    refine ⟨?_, by simp, by simp [hc.1]⟩
    simp only [todo, processQ_notifyAll, streaming_notifyAll, destructor_notifyAll, hc.1, DestructorPc.todo]
    omega
  · rename_i hc
    refine ⟨?_, rfl, by simp [hc.1]⟩
    simp [todo, hc.1, DestructorPc.todo]

/-- Until all is passed on and the destructor has returned, something can be done. -/
theorem Inv.goes_on (h : s.Inv) (hjoins : s.Joins) (hnot : ¬ (s.passed.filter Item.serialized = s.arrived ∧
    (s.destructor = .notCalled ∨ s.destructor = .done))) : ∃ a, Closing s a ∧ (PostProcess.step s a).isSome := by
  by_cases hlocking : s.output = .locking
  · exact ⟨.outputLocked, trivial, by simp [PostProcess.step, hlocking]⟩
  by_cases hworking : s.output = .working
  · obtain ⟨inbuf, hrunning⟩ := Option.isSome_iff_exists.mp (h.threads.working.mp hworking)
    exact ⟨.pushed, trivial, by simp [PostProcess.step, hworking, hrunning, Fifo.finish]⟩
  -- the queue is empty, and a thread that was told to stop has returned
  obtain ⟨hempty, hret⟩ : s.processQ.waiting = [] ∧ (s.stop = true → s.output = .returned) := by
    rcases ho : s.output
    · exact absurd ho hlocking
    · obtain ⟨hempty, hstop⟩ := h.threads.waiting ho
      exact ⟨hempty, fun hc => by simp [hc] at hstop⟩
    · exact absurd ho hworking
    · exact ⟨(h.threads.returned ho).1, fun _ => rfl⟩
  rcases hs : s.streaming
  · have hall : s.passed.filter Item.serialized = s.arrived := by
      have hrunning := Option.not_isSome_iff_eq_none.mp fun hc => hworking (h.threads.working.mpr hc)
      simpa [pending, Fifo.line, hrunning, hempty, hs] using h.logs.inOrder
    rcases hd : s.destructor
    · exact absurd ⟨hall, .inl hd⟩ hnot
    · exact ⟨.sawEmpty, trivial, by simp [PostProcess.step, hd, hempty]⟩
    · exact ⟨.joined, trivial, by simp [PostProcess.step, hd, hret (hjoins hd)]⟩
    · exact absurd ⟨hall, .inr hd⟩ hnot
  · have hstopped := h.threads.stopped.mpr (hret (h.threads.awaiting hs))
    exact ⟨.sawStopped, trivial, by simp [PostProcess.step, hs, hstopped]⟩

end State

/-- **The element can be closed.** In every run in which no event but an EOS comes while
there are buffers in the element, and no buffer after an EOS: once nothing more comes,
all buffers and the EOS are passed on, and the destructor returns if it was called, in
whichever order the threads go on. -/
theorem closed_inevitable {s : State} (h : Reach step StepOk Started s) :
    Inevitable step Closing (fun t => t.passed.filter Item.serialized = s.arrived ∧
      (s.destructor = .notCalled ∨ t.destructor = .done)) s := by
  have hinv : s.Inv ∧ s.Joins := by
    refine Reach.invariant (I := fun t => t.Inv ∧ t.Joins) ?_
      (fun _ _ _ hi hok hs => ⟨hi.1.step hok hs, hi.2.step hs⟩) h
    intro s₀ h₀
    rw [h₀]
    exact ⟨Inv.started, fun hc => by cases hc⟩
  refine Inevitable.of_lt (I := fun t => (t.Inv ∧ t.Joins) ∧ t.arrived = s.arrived ∧
    (t.destructor = .notCalled ↔ s.destructor = .notCalled)) State.todo ?_ ?_ ⟨hinv, rfl, Iff.rfl⟩
  · rintro t ⟨⟨ht, hjoins⟩, harrived, hcalled⟩ hnot
    refine ht.goes_on hjoins fun hc => hnot ?_
    rwa [harrived, hcalled] at hc
  · rintro t a t' ⟨⟨ht, hjoins⟩, harrived, hcalled⟩ hok hs
    obtain ⟨hlt, hsame, hsame'⟩ := todo_lt hok hs
    have hstep : StepOk t a := by
      rcases a with _ | _ | _ | _ | _ | _ | _ | _ | _ <;> first | exact hok.elim | trivial
    exact ⟨⟨⟨ht.step hstep hs, hjoins.step hs⟩, hsame.trans harrived, hsame'.trans hcalled⟩, hlt⟩

/-- The destructor is called while two buffers are in the queue. -/
theorem closed_inevitable_twoBuffers : ∃ s, Reach step StepOk Started s ∧ s.passed = [] ∧
    s.arrived = [.buffer 7, .buffer 8] ∧ s.destructor = .awaitingEmpty ∧
    Inevitable step Closing (fun t => t.passed.filter Item.serialized = s.arrived ∧
      (s.destructor = .notCalled ∨ t.destructor = .done)) s := by
  have hinit : Started {} := rfl
  have hreach : Reach step StepOk Started _ :=
    Reach.get_exec (l := [.processBuffer 7 true, .processBuffer 8 true, .destroy]) hinit (by decide +kernel)
  exact ⟨_, hreach, by decide +kernel, by decide +kernel, by decide +kernel, closed_inevitable hreach⟩

end PostProcess
end DeepStream
