/-
# Sink pads of the stream muxer

A pad keeps one queue of buffers and events in the order of arrival, together
with the positions of the events (`eventIndices`), which the erasure of
buffers is meant to keep in step. `pushEvents` hands the events at the front
of the queue to the source pad; buffers leave the queue only when a batch is
copied or a late buffer is dropped, possibly from behind events that stay
(`BufErase`).
-/
import DeepStream.Lib.Word

namespace DeepStream
namespace Mux

inductive SourceState where
  | idle | paused | playing | stopping
  deriving DecidableEq, Repr

inductive PadMimeType where
  | invalid | video | audio
  deriving DecidableEq, Repr

/-- A queued buffer: the wrapped buffer and the number of surfaces in it. -/
structure BufferWrapper where
  raw : ℕ
  numFilled : ℕ
  deriving DecidableEq, Repr

/-- A queued event. -/
inductive EventWrapper where
  | eos | segment | streamStart | streamReset | nvStreamEos
  deriving DecidableEq, Repr

inductive QueueEntry where
  | buffer (b : BufferWrapper)
  | event (e : EventWrapper)
  deriving DecidableEq, Repr

/-- What the source pad has been given: the events of a pad, or a batch, which
is the list of the buffers copied into it, each with the id of its pad. -/
inductive SrcItem where
  | event (id : ℕ) (e : EventWrapper)
  | batch (copied : List (ℕ × BufferWrapper))
  deriving DecidableEq, Repr

/-- `type == ENTRY_EVENT`. -/
def QueueEntry.isEvent : QueueEntry → Bool
  | .buffer _ => false
  | .event _ => true

/-- The buffers of a queue, in order. -/
def buffersOf (q : List QueueEntry) : List BufferWrapper :=
  q.filterMap fun | .buffer b => some b | .event _ => none

@[simp] theorem buffersOf_nil : buffersOf [] = [] := rfl

@[simp] theorem buffersOf_cons_buffer (b : BufferWrapper) (q : List QueueEntry) :
    buffersOf (.buffer b :: q) = b :: buffersOf q := rfl

@[simp] theorem buffersOf_cons_event (e : EventWrapper) (q : List QueueEntry) :
    buffersOf (.event e :: q) = buffersOf q := rfl

@[simp] theorem buffersOf_append (q q' : List QueueEntry) :
    buffersOf (q ++ q') = buffersOf q ++ buffersOf q' := List.filterMap_append

/-- `waiting` counts the producers that wait on `cv_input_full`. -/
structure SinkPad where
  id : ℕ
  queue : List QueueEntry
  eventIndices : List ℕ
  state : SourceState
  switchedToIdle : Bool
  switchedToActive : Bool
  eos : Bool
  mimeType : PadMimeType
  frameCount : ℕ
  bufferCount : ℕ
  maxBufferCount : ℕ
  waiting : ℕ
  deriving DecidableEq, Repr

namespace SinkPad

/-- The constructor. -/
def new (id : ℕ) : SinkPad where
  id := id
  queue := []
  eventIndices := []
  state := .idle
  switchedToIdle := false
  switchedToActive := false
  eos := false
  mimeType := .video
  frameCount := 0
  bufferCount := 0
  maxBufferCount := 0
  waiting := 0

def queueEntry (p : SinkPad) (entry : QueueEntry) : SinkPad :=
  let q := p.queue ++ [entry]
  match entry with
  | .event _ =>
    { p with queue := q, eventIndices := p.eventIndices ++ [wrapSub 32 (q.length % 2 ^ 32) 1] }
  | .buffer _ => { p with queue := q, bufferCount := wrapAdd 64 p.bufferCount 1 }

/-- The loop of `adjustEventIndices`: with `isEvent` the first `offset` indices
are erased, the others move down. -/
def adjustIndices (offset : ℕ) (isEvent : Bool) : ℕ → List ℕ → List ℕ
  | _, [] => []
  | deleted, i :: is =>
    if isEvent ∧ deleted < offset then adjustIndices offset isEvent (deleted + 1) is
    else wrapSub 32 i offset :: adjustIndices offset isEvent deleted is

def adjustEventIndices (p : SinkPad) (offset : ℕ) (isEvent : Bool) : SinkPad :=
  { p with eventIndices := adjustIndices offset isEvent 0 p.eventIndices }

/-- `bottom_index`: the position of the first event according to the indices,
forced to 0 when an event is at the front. -/
def bottomIndex (p : SinkPad) : ℤ :=
  match p.queue with
  | .event _ :: _ => 0
  | _ =>
    match p.eventIndices with
    | [] => -1
    | i :: _ => toInt32 i

/-- The events at the front go to the source pad: the pad afterwards and what
was pushed. -/
def pushEvents (p : SinkPad) : SinkPad × List SrcItem :=
  if p.bottomIndex = 0 then
    let pushed := p.queue.takeWhile QueueEntry.isEvent
    ({ p with queue := p.queue.dropWhile QueueEntry.isEvent }.adjustEventIndices pushed.length true,
      pushed.filterMap fun | .event e => some (.event p.id e) | .buffer _ => none)
  else (p.adjustEventIndices 0 true, [])

def getAvailable (p : SinkPad) : ℕ := wrapSub 32 (p.queue.length % 2 ^ 32) p.eventIndices.length

def popBufferDone (p : SinkPad) : SinkPad :=
  let c := wrapSub 64 p.bufferCount 1
  { p with bufferCount := c, waiting := if c ≤ p.maxBufferCount then 0 else p.waiting }

/-- A producer that finds the queue full waits until it is notified. -/
def waitIfQueueFull (p : SinkPad) : SinkPad :=
  if p.maxBufferCount ≠ 0 ∧ p.bufferCount > p.maxBufferCount then { p with waiting := p.waiting + 1 } else p

def reset (p : SinkPad) : SinkPad := { p with queue := [], eventIndices := [], state := .idle }

/-! ### The fields an operation leaves alone -/

@[simp] theorem queueEntry_queue (p : SinkPad) (entry : QueueEntry) :
    (p.queueEntry entry).queue = p.queue ++ [entry] := by
  cases entry <;> rfl

@[simp] theorem queueEntry_eos (p : SinkPad) (entry : QueueEntry) :
    (p.queueEntry entry).eos = p.eos := by
  cases entry <;> rfl

@[simp] theorem queueEntry_switchedToIdle (p : SinkPad) (entry : QueueEntry) :
    (p.queueEntry entry).switchedToIdle = p.switchedToIdle := by
  cases entry <;> rfl

@[simp] theorem adjustEventIndices_queue (p : SinkPad) (n : ℕ) (b : Bool) :
    (p.adjustEventIndices n b).queue = p.queue := rfl

@[simp] theorem adjustEventIndices_eos (p : SinkPad) (n : ℕ) (b : Bool) :
    (p.adjustEventIndices n b).eos = p.eos := rfl

@[simp] theorem pushEvents_eos (p : SinkPad) : p.pushEvents.1.eos = p.eos := by
  unfold pushEvents
  split <;> rfl

@[simp] theorem pushEvents_switchedToIdle (p : SinkPad) :
    p.pushEvents.1.switchedToIdle = p.switchedToIdle := by
  unfold pushEvents
  split <;> rfl

@[simp] theorem waitIfQueueFull_queue (p : SinkPad) : p.waitIfQueueFull.queue = p.queue := by
  unfold waitIfQueueFull
  split <;> rfl

@[simp] theorem waitIfQueueFull_eos (p : SinkPad) : p.waitIfQueueFull.eos = p.eos := by
  unfold waitIfQueueFull
  split <;> rfl

@[simp] theorem waitIfQueueFull_switchedToIdle (p : SinkPad) :
    p.waitIfQueueFull.switchedToIdle = p.switchedToIdle := by
  unfold waitIfQueueFull
  split <;> rfl

/-! ### What is left in the queue -/

/-- Whatever the indices say, `pushEvents` removes the events at the front and
nothing else. -/
theorem pushEvents_queue (p : SinkPad) :
    p.pushEvents.1.queue = p.queue.dropWhile QueueEntry.isEvent := by
  unfold pushEvents
  split
  · rfl
  · rename_i h
    unfold bottomIndex at h
    cases hq : p.queue with
    | nil => simp [hq]
    | cons entry q =>
      cases entry with
      | buffer b => simp [hq, QueueEntry.isEvent]
      | event e => simp [hq] at h

end SinkPad

theorem buffersOf_dropWhile_isEvent : ∀ q : List QueueEntry,
    buffersOf (q.dropWhile QueueEntry.isEvent) = buffersOf q
  | [] => rfl
  | .buffer b :: q => by simp [QueueEntry.isEvent]
  | .event e :: q => by
    rw [List.dropWhile_cons_of_pos (by rfl), buffersOf_dropWhile_isEvent q, buffersOf_cons_event]

theorem buffersOf_pushEvents (p : SinkPad) : buffersOf p.pushEvents.1.queue = buffersOf p.queue := by
  rw [SinkPad.pushEvents_queue, buffersOf_dropWhile_isEvent]

/-- The last entry of the queue is an event. -/
def lastIsEvent (q : List QueueEntry) : Bool := (q.getLast?).any QueueEntry.isEvent

@[simp] theorem lastIsEvent_append_event (q : List QueueEntry) (e : EventWrapper) :
    lastIsEvent (q ++ [.event e]) := by
  simp [lastIsEvent, QueueEntry.isEvent]

theorem lastIsEvent_cons {entry : QueueEntry} {q : List QueueEntry} (hq : q ≠ []) :
    lastIsEvent (entry :: q) = lastIsEvent q := by
  obtain ⟨x, q', rfl⟩ := List.exists_cons_of_ne_nil hq
  simp [lastIsEvent, List.getLast?_cons_cons]

theorem lastIsEvent_ne_nil {q : List QueueEntry} (h : lastIsEvent q) : q ≠ [] := by
  rintro rfl
  simp [lastIsEvent] at h

/-- A queue that ends in an event still does so after `pushEvents`, unless it
is empty then. -/
theorem lastIsEvent_dropWhile {q : List QueueEntry} (h : lastIsEvent q) :
    q.dropWhile QueueEntry.isEvent = [] ∨ lastIsEvent (q.dropWhile QueueEntry.isEvent) := by
  induction q with
  | nil => exact .inl rfl
  | cons entry q ih =>
    by_cases he : entry.isEvent
    · rw [List.dropWhile_cons_of_pos he]
      by_cases hq : q = []
      · exact .inl (by rw [hq]; rfl)
      · exact ih (by rwa [lastIsEvent_cons hq] at h)
    · rw [List.dropWhile_cons_of_neg he]
      exact .inr h

/-- `q'` is `q` with some of its buffers erased. -/
inductive BufErase : List QueueEntry → List QueueEntry → Prop
  | nil : BufErase [] []
  | keep {q q' : List QueueEntry} (entry : QueueEntry) (h : BufErase q q') :
      BufErase (entry :: q) (entry :: q')
  | drop {q q' : List QueueEntry} (b : BufferWrapper) (h : BufErase q q') :
      BufErase (.buffer b :: q) q'

theorem BufErase.refl : ∀ q : List QueueEntry, BufErase q q
  | [] => .nil
  | entry :: q => .keep entry (BufErase.refl q)

/-- An event at the end of the queue survives the erasure of buffers. -/
theorem BufErase.lastIsEvent {q q' : List QueueEntry} (h : BufErase q q') :
    lastIsEvent q → lastIsEvent q' := by
  induction h with
  | nil => exact id
  | @keep q q' entry h ih =>
    intro hl
    by_cases hq : q = []
    · subst hq
      cases h
      exact hl
    · have hq' := ih (by rwa [lastIsEvent_cons hq] at hl)
      rwa [lastIsEvent_cons (lastIsEvent_ne_nil hq')]
  | @drop q q' b h ih =>
    intro hl
    by_cases hq : q = []
    · subst hq
      simp [Mux.lastIsEvent, QueueEntry.isEvent] at hl
    · exact ih (by rwa [lastIsEvent_cons hq] at hl)

theorem BufErase.nil_left {q' : List QueueEntry} (h : BufErase [] q') : q' = [] := by
  cases h
  rfl

/-- The counter is exact, and a producer waits only while the queue holds more
buffers than it may. -/
structure SinkPad.Exact (p : SinkPad) : Prop where
  count : p.bufferCount = (buffersOf p.queue).length
  lt : p.bufferCount < 2 ^ 64
  waiting : p.waiting ≠ 0 → p.maxBufferCount < (buffersOf p.queue).length

/-- `p'` is `p` with some of its buffers erased and popped, and nothing changed
that says where the stream is. -/
structure SinkPad.Trims (p p' : SinkPad) : Prop where
  queue : BufErase p.queue p'.queue
  eos : p'.eos = p.eos
  switchedToIdle : p'.switchedToIdle = p.switchedToIdle
  exact : p.Exact → p'.Exact

/-- `n` calls of `pop_buffer_done` take `n` from the count and notify the
producers as soon as it is down to the bound. -/
theorem SinkPad.popBufferDone_iterate (p : SinkPad) (n : ℕ) :
    ∃ c w, popBufferDone^[n] p = { p with bufferCount := c, waiting := w } ∧
      ∀ k, p.bufferCount = n + k → p.bufferCount < 2 ^ 64 →
        (p.waiting ≠ 0 → p.maxBufferCount < p.bufferCount) → c = k ∧ (w ≠ 0 → p.maxBufferCount < k) := by
  induction n with
  | zero =>
    refine ⟨p.bufferCount, p.waiting, rfl, fun k hk _ hw => ?_⟩
    rw [Nat.zero_add] at hk
    exact ⟨hk, hk ▸ hw⟩
  | succ n ih =>
    obtain ⟨c, w, hc, hpop⟩ := ih
    rw [Function.iterate_succ_apply', hc]
    refine ⟨_, _, rfl, fun k hk hlt hw => ?_⟩
    obtain ⟨rfl, -⟩ := hpop (k + 1) (by omega) hlt hw
    have hsub : wrapSub 64 (k + 1) 1 = k := wrapSub_of_le (by omega) (by omega)
    refine ⟨hsub, fun h => ?_⟩
    by_contra hle
    exact h (if_pos (hsub.trans_le (Nat.le_of_not_lt hle)))

/-- Erasing buffers and popping each of them trims the pad. -/
theorem SinkPad.Trims.of_pops {p q : SinkPad} (n : ℕ) (hq : BufErase p.queue q.queue)
    (hn : (buffersOf p.queue).length = n + (buffersOf q.queue).length) (heos : q.eos = p.eos)
    (hidle : q.switchedToIdle = p.switchedToIdle) (hcount : q.bufferCount = p.bufferCount)
    (hmax : q.maxBufferCount = p.maxBufferCount) (hwaiting : q.waiting = p.waiting) :
    p.Trims (SinkPad.popBufferDone^[n] q) := by
  obtain ⟨c, w, hc, hpop⟩ := q.popBufferDone_iterate n
  rw [hc]
  refine ⟨hq, heos, hidle, fun h => ?_⟩
  have hlt := h.lt
  have hlen : q.bufferCount = n + (buffersOf q.queue).length := by rw [hcount, h.count, hn]
  obtain ⟨hck, hw⟩ := hpop _ hlen (by rwa [hcount]) (by rw [hwaiting, hmax, hcount, h.count]; exact h.waiting)
  exact ⟨hck, by show c < _; omega, hw⟩

theorem SinkPad.Trims.adjustEventIndices {p q : SinkPad} (h : p.Trims q) (n : ℕ) (b : Bool) :
    p.Trims (q.adjustEventIndices n b) :=
  ⟨h.queue, h.eos, h.switchedToIdle, fun he => ⟨(h.exact he).count, (h.exact he).lt, (h.exact he).waiting⟩⟩

end Mux
end DeepStream
