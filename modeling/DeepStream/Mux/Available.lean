/-
# What is available on a pad

`get_available` subtracts the number of event indices from the length of the
queue. The indices themselves become stale, and may wrap, when buffers in front
of an event are erased; their number is that of the queued events all the same,
whatever the order of the operations on a pad. An erasure is one step here: the
loops of `copy_batch` and `synchronize_buffers_in_pad` are runs of such steps.
-/
import DeepStream.Mux.Sections
import Mathlib.Data.List.TakeWhile

namespace DeepStream
namespace Mux

open NvStreamMux

/-- The events of a queue, in order. -/
def eventsOf (q : List QueueEntry) : List EventWrapper :=
  q.filterMap fun | .buffer _ => none | .event e => some e

@[simp] theorem eventsOf_nil : eventsOf [] = [] := rfl

@[simp] theorem eventsOf_cons_buffer (b : BufferWrapper) (q : List QueueEntry) :
    eventsOf (.buffer b :: q) = eventsOf q := rfl

@[simp] theorem eventsOf_cons_event (e : EventWrapper) (q : List QueueEntry) :
    eventsOf (.event e :: q) = e :: eventsOf q := rfl

@[simp] theorem eventsOf_append (q q' : List QueueEntry) : eventsOf (q ++ q') = eventsOf q ++ eventsOf q' :=
  List.filterMap_append

theorem length_eq_events_add_buffers : ∀ q : List QueueEntry,
    q.length = (eventsOf q).length + (buffersOf q).length
  | [] => rfl
  | .buffer b :: q => by
    rw [List.length_cons, length_eq_events_add_buffers q, eventsOf_cons_buffer, buffersOf_cons_buffer,
      List.length_cons, Nat.add_assoc]
  | .event e :: q => by
    rw [List.length_cons, length_eq_events_add_buffers q, eventsOf_cons_event, buffersOf_cons_event,
      List.length_cons, Nat.add_right_comm]

theorem eventsOf_takeWhile_append : ∀ q : List QueueEntry,
    eventsOf q = eventsOf (q.takeWhile QueueEntry.isEvent) ++ eventsOf (q.dropWhile QueueEntry.isEvent) := by
  intro q
  rw [← eventsOf_append, List.takeWhile_append_dropWhile]

theorem length_eventsOf_takeWhile : ∀ q : List QueueEntry,
    (eventsOf (q.takeWhile QueueEntry.isEvent)).length = (q.takeWhile QueueEntry.isEvent).length
  | [] => rfl
  | .buffer _ :: _ => rfl
  | .event e :: q => by
    rw [List.takeWhile_cons_of_pos (by rfl), eventsOf_cons_event, List.length_cons, List.length_cons,
      length_eventsOf_takeWhile q]

namespace SinkPad

/-! ### The operations on a pad -/

/-- The steps on a pad: `eraseBuffer` is one erasure of `copy_batch` or
`synchronize_buffers_in_pad`, and `adjustEventIndices` and `updateFrameCount` are the
calls of `copy_batch`. -/
inductive Call where
  | queueEntry (entry : QueueEntry)
  | pushEvents
  | eraseBuffer (i : ℕ)
  | adjustEventIndices (numSourcesCopied : ℕ)
  | updateFrameCount (count : ℕ)
  | reset
  deriving DecidableEq, Repr

def step (p : SinkPad) : Call → Option SinkPad
  | .queueEntry entry => some (p.queueEntry entry)
  | .pushEvents => some p.pushEvents.1
  | .eraseBuffer i =>
    match p.queue[i]? with
    | some (.buffer _) => some { p with queue := p.queue.eraseIdx i }.popBufferDone
    | _ => none
  | .adjustEventIndices n => some (p.adjustEventIndices n false)
  | .updateFrameCount n => some { p with frameCount := wrapAdd 64 p.frameCount n }
  | .reset => some p.reset

/-- A pad that has just been constructed; its state is set by the muxer. -/
def Constructed (p : SinkPad) : Prop := p.queue = [] ∧ p.eventIndices = []

instance (p : SinkPad) : Decidable p.Constructed := inferInstanceAs (Decidable (_ ∧ _))

/-! ### The number of event indices -/

theorem length_adjustIndices_false (offset : ℕ) : ∀ (deleted : ℕ) (is : List ℕ),
    (adjustIndices offset false deleted is).length = is.length
  | _, [] => rfl
  | deleted, i :: is => by
    rw [adjustIndices, if_neg (by simp), List.length_cons, length_adjustIndices_false offset deleted is,
      List.length_cons]

/-- As many indices are erased as events were pushed, if there are that many. -/
theorem length_adjustIndices_true (offset : ℕ) : ∀ (deleted : ℕ) (is : List ℕ), deleted ≤ offset →
    (adjustIndices offset true deleted is).length = is.length - (offset - deleted)
  | _, [], _ => by simp [adjustIndices]
  | deleted, i :: is, h => by
    by_cases hlt : deleted < offset
    · rw [adjustIndices, if_pos ⟨rfl, hlt⟩, length_adjustIndices_true offset (deleted + 1) is hlt, List.length_cons]
      omega
    · have hoff : offset - deleted = 0 := by omega
      rw [adjustIndices, if_neg (by simp [hlt]), List.length_cons, length_adjustIndices_true offset deleted is h,
        hoff, List.length_cons, Nat.sub_zero, Nat.sub_zero]

/-- There is an index for every queued event. -/
def Counted (p : SinkPad) : Prop := p.eventIndices.length = (eventsOf p.queue).length

/-- `push_events` takes the run of events at the front, whatever the indices say. -/
theorem pushEvents_eq (p : SinkPad) :
    p.pushEvents = ({ p with queue := p.queue.dropWhile QueueEntry.isEvent }.adjustEventIndices
        (p.queue.takeWhile QueueEntry.isEvent).length true,
      (eventsOf (p.queue.takeWhile QueueEntry.isEvent)).map (.event p.id)) := by
  unfold pushEvents
  split
  · refine congrArg (Prod.mk _) ?_
    induction p.queue.takeWhile QueueEntry.isEvent with
    | nil => rfl
    | cons entry q ih =>
      cases entry with
      | buffer b => exact ih
      | event e => exact congrArg (SrcItem.event p.id e :: ·) ih
  · rename_i h
    -- with another index than 0 the queue does not begin with an event
    have htake : p.queue.takeWhile QueueEntry.isEvent = [] ∧ p.queue.dropWhile QueueEntry.isEvent = p.queue := by
      cases hq : p.queue with
      | nil => exact ⟨rfl, rfl⟩
      | cons entry q =>
        cases entry with
        | event e => simp [bottomIndex, hq] at h
        | buffer b => exact ⟨rfl, rfl⟩
    rw [htake.1, htake.2]
    rfl

theorem Counted.pushEvents {p : SinkPad} (h : p.Counted) : p.pushEvents.1.Counted := by
  have hsplit := congrArg List.length (eventsOf_takeWhile_append p.queue)
  rw [List.length_append, length_eventsOf_takeWhile] at hsplit
  rw [pushEvents_eq, Counted]
  show (adjustIndices _ true 0 p.eventIndices).length = (eventsOf (p.queue.dropWhile QueueEntry.isEvent)).length
  rw [length_adjustIndices_true _ 0 _ (Nat.zero_le _), h]
  omega

@[simp] theorem popBufferDone_queue (p : SinkPad) : p.popBufferDone.queue = p.queue := rfl

@[simp] theorem popBufferDone_eventIndices (p : SinkPad) : p.popBufferDone.eventIndices = p.eventIndices := rfl

theorem eventsOf_eraseIdx {b : BufferWrapper} : ∀ {q : List QueueEntry} {i : ℕ}, q[i]? = some (.buffer b) →
    eventsOf (q.eraseIdx i) = eventsOf q
  | [], _, h => by simp at h
  | entry :: q, 0, h => by
    obtain rfl : entry = .buffer b := by simpa using h
    rfl
  | entry :: q, i + 1, h => by
    have ih := eventsOf_eraseIdx (q := q) (i := i) (by simpa using h)
    cases entry <;> simp [ih]

/-- Every operation keeps the number of indices in step with the queue. -/
theorem Counted.step {p p' : SinkPad} {c : Call} (h : p.Counted) (hs : p.step c = some p') : p'.Counted := by
  cases c with
  | queueEntry entry =>
    cases hs
    cases entry with
    | buffer b => simpa [Counted, SinkPad.queueEntry] using h
    | event e => simpa [Counted, SinkPad.queueEntry] using h
  | pushEvents =>
    cases hs
    exact h.pushEvents
  | eraseBuffer i =>
    simp only [SinkPad.step] at hs
    split at hs
    · rename_i b hb
      cases hs
      rw [Counted, popBufferDone_queue, popBufferDone_eventIndices, eventsOf_eraseIdx hb]
      exact h
    · cases hs
  | adjustEventIndices n =>
    cases hs
    exact (length_adjustIndices_false n 0 _).trans h
  | updateFrameCount n =>
    cases hs
    exact h
  | reset =>
    cases hs
    rfl

/-- What is available: there are as many event indices as queued events, so the
subtraction does not wrap and `get_available` is the number of queued buffers (as an
`unsigned`); and `push_events` pushes the longest run of events at the front, in
order, and leaves the rest of the queue. -/
structure Available (p : SinkPad) : Prop where
  eventIndices : p.eventIndices.length = (eventsOf p.queue).length
  le : p.eventIndices.length ≤ p.queue.length
  available : p.getAvailable = (buffersOf p.queue).length % 2 ^ 32
  pushEvents : ∃ run rest, p.queue = run ++ rest ∧ (∀ entry ∈ run, entry.isEvent) ∧
    (∀ entry ∈ rest.head?, ¬ entry.isEvent) ∧ p.pushEvents.1.queue = rest ∧
    p.pushEvents.2 = (eventsOf run).map (.event p.id)

theorem wrapSub_mod {a b c : ℕ} (h : a = b + c) : wrapSub 32 (a % 2 ^ 32) b = c % 2 ^ 32 := by
  unfold wrapSub
  omega

theorem Counted.available {p : SinkPad} (h : p.Counted) : p.Available where
  eventIndices := h
  le := by
    rw [h, length_eq_events_add_buffers p.queue]
    exact Nat.le_add_right _ _
  available := by
    rw [getAvailable, h]
    exact wrapSub_mod (length_eq_events_add_buffers p.queue)
  pushEvents := by
    refine ⟨p.queue.takeWhile QueueEntry.isEvent, p.queue.dropWhile QueueEntry.isEvent,
      List.takeWhile_append_dropWhile.symm, fun entry hentry => List.mem_takeWhile_imp hentry, ?_,
      p.pushEvents_queue, by rw [pushEvents_eq]⟩
    intro entry hentry
    have hhead := List.head?_dropWhile_not QueueEntry.isEvent p.queue
    rw [Option.mem_def.mp hentry] at hhead
    simpa using hhead

theorem Counted.of_reach {p : SinkPad} (h : Reach SinkPad.step anyStep Constructed p) : p.Counted := by
  refine h.invariant (I := Counted) ?_ fun _ _ _ hI _ hs => hI.step hs
  intro q hq
  rw [Counted, hq.1, hq.2]
  rfl

/-- **Whatever the order of the operations**, `get_available` and `push_events` do what
they are for. -/
theorem counted_run {p : SinkPad} (h : Reach step anyStep Constructed p) : p.Available :=
  (Counted.of_reach h).available

/-- An event behind two buffers that are erased has an index that wraps. -/
theorem counted_run_stale :
    ∃ p : SinkPad, p.eventIndices = [2 ^ 32 - 1] ∧ p.Available := by
  have hinit : Constructed (SinkPad.new 0) := by decide
  have hreach : Reach step anyStep Constructed _ := Reach.get_exec (l := [.queueEntry (.buffer ⟨0, 1⟩),
    .queueEntry (.event .segment), .queueEntry (.buffer ⟨1, 1⟩), .eraseBuffer 0, .eraseBuffer 1,
    .adjustEventIndices 2]) hinit (by decide +kernel)
  exact ⟨_, by decide +kernel, counted_run hreach⟩

/-! ### The loops are runs of erasures -/

theorem length_buffersOf_le {q q' : List QueueEntry} (h : BufErase q q') :
    (buffersOf q').length ≤ (buffersOf q).length := by
  induction h with
  | nil => exact le_rfl
  | keep entry _ ih => cases entry <;> simpa using ih
  | drop b _ ih => exact ih.trans (Nat.le_succ _)

/-- A queue of which buffers are erased one by one, from behind `pre` on. -/
theorem reach_of_bufErase {q q' : List QueueEntry} (h : BufErase q q') : ∀ (pre : List QueueEntry) (p : SinkPad),
    p.queue = pre ++ q →
    Reach step anyStep (· = p) (popBufferDone^[(buffersOf q).length - (buffersOf q').length] { p with queue := pre ++ q' }) := by
  induction h with
  | nil =>
    intro pre p hp
    rw [Nat.sub_self, Function.iterate_zero, id_eq, ← hp]
    exact .init rfl
  | @keep q q' entry _ ih =>
    intro pre p hp
    have hn : (buffersOf (entry :: q)).length - (buffersOf (entry :: q')).length =
        (buffersOf q).length - (buffersOf q').length := by
      cases entry <;> simp
    rw [hn, List.append_cons pre entry q']
    exact ih (pre ++ [entry]) p (by rw [hp, List.append_cons])
  | @drop q q' b herase ih =>
    intro pre p hp
    have hle := length_buffersOf_le herase
    have hat : p.queue[pre.length]? = some (.buffer b) := by
      rw [hp, List.getElem?_append_right le_rfl, Nat.sub_self, List.getElem?_cons_zero]
    have hleft : p.queue.eraseIdx pre.length = pre ++ q := by
      rw [hp, List.eraseIdx_append_of_length_le le_rfl, Nat.sub_self, List.eraseIdx_cons_zero]
    have hstep : p.step (.eraseBuffer pre.length) = some { p with queue := pre ++ q }.popBufferDone := by
      simp only [SinkPad.step]
      rw [hat, hleft]
    have hn : (buffersOf (.buffer b :: q)).length - (buffersOf q').length =
        ((buffersOf q).length - (buffersOf q').length) + 1 := by
      rw [buffersOf_cons_buffer, List.length_cons]
      omega
    rw [hn, Function.iterate_succ_apply]
    have hfirst : Reach step anyStep (· = p) { p with queue := pre ++ q }.popBufferDone :=
      .single trivial hstep
    exact hfirst.trans (ih pre _ rfl)

/-- The late buffers are erased one by one. -/
theorem reach_synchronizeBuffersInPad (p : SinkPad) (n : ℕ) (synchInfo : BufferWrapper → BufferTsStatus) :
    Reach step anyStep (· = p) (synchronizeBuffersInPad p n synchInfo).1 := by
  have h := reach_of_bufErase (BatchPolicy.synchronizeQueue_bufErase synchInfo n p.queue) [] p rfl
  rw [BatchPolicy.synchronizeQueue_length synchInfo n p.queue, Nat.add_sub_cancel] at h
  exact h

end SinkPad
end Mux
end DeepStream
