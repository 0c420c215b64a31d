/-
# No buffer is lost, duplicated or reordered

A buffer that `add_buffer` queues on a pad is in the queue, in the batch that
`push_loop` has copied and not pushed yet, or in a batch that was pushed, and
over these three places the buffers of a pad stay in the order in which they
were added. Events move in front of the buffers without changing their order,
a batch that is given up has taken nothing, and a buffer of which nothing fits
stays in its queue.
-/
import DeepStream.Mux.Sections

namespace DeepStream
namespace Mux

open BatchPolicy

/-- The buffers of one pad in a batch. -/
def ofPad (id : ℕ) (copied : List (ℕ × BufferWrapper)) : List BufferWrapper :=
  (copied.filter fun b => b.1 = id).map Prod.snd

@[simp] theorem ofPad_nil (id : ℕ) : ofPad id [] = [] := rfl

@[simp] theorem ofPad_append (id : ℕ) (c c' : List (ℕ × BufferWrapper)) :
    ofPad id (c ++ c') = ofPad id c ++ ofPad id c' := by
  simp [ofPad]

theorem ofPad_map (id a : ℕ) (l : List BufferWrapper) :
    ofPad id (l.map fun b => (a, b)) = if a = id then l else [] := by
  induction l with
  | nil => simp
  | cons b l ih =>
    rw [List.map_cons, ← List.singleton_append, ofPad_append, ih]
    by_cases h : a = id <;> simp [ofPad, h]

/-- The buffers of one pad in the batches that the source pad was given. -/
def pushedOf (id : ℕ) : List SrcItem → List BufferWrapper
  | [] => []
  | .event _ _ :: l => pushedOf id l
  | .batch copied :: l => ofPad id copied ++ pushedOf id l

@[simp] theorem pushedOf_append (id : ℕ) : ∀ l l' : List SrcItem,
    pushedOf id (l ++ l') = pushedOf id l ++ pushedOf id l'
  | [], _ => rfl
  | .event _ _ :: l, l' => pushedOf_append id l l'
  | .batch copied :: l, l' => by
    rw [List.cons_append, pushedOf, pushedOf_append id l l', pushedOf, List.append_assoc]

/-- A pad pushes events only. -/
theorem pushedOf_events (id padId : ℕ) : ∀ q : List QueueEntry, pushedOf id
    (q.filterMap fun | .event e => some (.event padId e) | .buffer _ => none) = []
  | [] => rfl
  | .buffer _ :: q => pushedOf_events id padId q
  | .event _ :: q => pushedOf_events id padId q

theorem pushedOf_pushEvents (id : ℕ) (p : SinkPad) : pushedOf id p.pushEvents.2 = [] := by
  unfold SinkPad.pushEvents
  split
  · exact pushedOf_events id p.id _
  · rfl

namespace NvStreamMux

/-- The buffers in the queue of a pad. -/
def queuedOf (m : NvStreamMux) (id : ℕ) : List BufferWrapper :=
  ((m.pad id).map fun p => buffersOf p.queue).getD []

theorem queuedOf_of_pad {m : NvStreamMux} {id : ℕ} {p : SinkPad} (h : m.pad id = some p) :
    m.queuedOf id = buffersOf p.queue := by
  rw [queuedOf, h]
  rfl

theorem queuedOf_congr {m m' : NvStreamMux} (h : ∀ id, m'.pad id = m.pad id) (id : ℕ) :
    m'.queuedOf id = m.queuedOf id := by
  rw [queuedOf, h, queuedOf]

theorem queuedOf_setPad (m : NvStreamMux) (id a : ℕ) (p : SinkPad) :
    (m.setPad id p).queuedOf a = if a = id then buffersOf p.queue else m.queuedOf a := by
  rw [queuedOf, pad_setPad, queuedOf]
  split <;> rfl

/-- Every buffer that was added is pushed, copied (`c`) or queued, in order;
late buffers are not dropped. -/
structure Kept (m : NvStreamMux) (c : List (ℕ × BufferWrapper)) (added : ℕ → List BufferWrapper) :
    Prop where
  synchBuffer : ¬ m.batchPolicy.synchBuffer
  inOrder : ∀ id, pushedOf id m.srcPad ++ ofPad id c ++ m.queuedOf id = added id

variable {m m' : NvStreamMux} {c : List (ℕ × BufferWrapper)} {added : ℕ → List BufferWrapper}

theorem Kept.congr (h : Kept m c added) (hpad : ∀ id, m'.pad id = m.pad id)
    (hsync : m'.batchPolicy.synchBuffer = m.batchPolicy.synchBuffer)
    (hsrc : ∀ id, pushedOf id m'.srcPad = pushedOf id m.srcPad) : Kept m' c added where
  synchBuffer := hsync ▸ h.synchBuffer
  inOrder id := by rw [hsrc, queuedOf_congr hpad, h.inOrder]

theorem Kept.lookup (h : Kept m c added) (id : ℕ) : Kept (m.lookup id) c added :=
  h.congr (pad_lookup m id) rfl fun _ => rfl

/-- A pad is stored whose queue has the same buffers. -/
theorem Kept.setPad (h : Kept m c added) {id : ℕ} {p : SinkPad}
    (hp : buffersOf p.queue = m.queuedOf id) : Kept (m.setPad id p) c added where
  synchBuffer := h.synchBuffer
  inOrder a := by
    rw [queuedOf_setPad]
    split
    · rename_i ha
      rw [hp, ← ha]
      exact h.inOrder a
    · exact h.inOrder a

theorem Kept.pushEventsOfPad (h : Kept m c added) (id : ℕ) : Kept (m.pushEventsOfPad id) c added := by
  cases hp : m.pad id with
  | none => rwa [pushEventsOfPad_none hp]
  | some p =>
    obtain ⟨m', q, hm, hs⟩ := pushEventsOfPad_eq hp
    rw [hm]
    have hm' : Kept m' c added := h.congr hs.pad hs.synchBuffer fun a => by
      rw [hs.srcPad, pushedOf_append, pushedOf_pushEvents, List.append_nil]
    refine hm'.setPad ?_
    rw [hs.queue, buffersOf_pushEvents, queuedOf_congr hs.pad]
    exact (queuedOf_of_pad hp).symm

theorem Kept.pushEvents {order : List ℕ} (h : Kept m c added) (hm : m.pushEvents order = some m') :
    Kept m' c added :=
  pushEvents_invariant (I := fun m => Kept m c added) (fun _ id h => h.pushEventsOfPad id)
    (fun _ h => h.congr (fun _ => rfl) rfl fun _ => rfl) h hm

theorem Kept.formBatch {env : ℕ → OfferEnv} (h : Kept m c added) (hm : m.formBatch env = some m') :
    Kept m' c added :=
  formBatch_invariant (I := fun m => Kept m c added)
    (fun _ _ _ _ hsync _ _ h => absurd hsync h.synchBuffer)
    (fun _ _ _ h => h.congr (fun _ => rfl) rfl fun _ => rfl) h hm

/-- What `copy_batch` copies leaves the front of the queues. -/
theorem Kept.copyBatch {ω : Type*} {copyBuf : CopyBuf ω} {out : ω} {order : List ℕ}
    {r : CopyState ω} (h : Kept m [] added) (hr : m.copyBatch copyBuf out order = some r) :
    Kept r.mux r.copied added := by
  refine copyBatch_invariant (I := fun st => Kept st.mux st.copied added) (fun st count id hst => ?_) h hr
  cases hp : st.mux.pad id with
  | none =>
    rw [copySource_none copyBuf count hp]
    exact hst.lookup id
  | some p =>
    obtain ⟨m', q, copied, hm, hc, -, hquiet, hsync, hsrc, -, hbuffers⟩ := copySource_eq copyBuf count hp
    rw [hm, hc]
    refine ⟨hsync ▸ hst.synchBuffer, fun a => ?_⟩
    have hold := hst.inOrder a
    rw [queuedOf_setPad, ofPad_append, ofPad_map]
    show pushedOf a m'.srcPad ++ _ ++ _ = _
    rw [hsrc]
    by_cases ha : a = id
    · rw [ha, queuedOf_of_pad hp, hbuffers] at hold
      rw [if_pos ha, if_pos ha.symm, ha]
      simpa only [List.append_assoc] using hold
    · rw [if_neg ha, if_neg (Ne.symm ha), queuedOf_congr hquiet.pad, List.append_nil]
      exact hold

theorem Kept.loopStep {ω : Type*} {copyBuf : CopyBuf ω} {o : Outside} {pc pc' : LoopPc ω}
    (h : Kept m pc.inFlight added) (hm : m.loopStep copyBuf o pc = some (m', pc')) :
    Kept m' pc'.inFlight added := by
  cases loopStep_cases hm with
  | move hpc hpc' => rwa [hpc', ← hpc]
  | pushEvents order hpc hpc' hm =>
    rw [hpc', ← hpc]
    exact h.pushEvents hm
  | formBatch env hpc hpc' hm =>
    rw [hpc', ← hpc]
    exact h.formBatch hm
  | copy order hr => exact h.copyBatch hr
  | push out copied =>
    refine ⟨h.synchBuffer, fun id => ?_⟩
    have hpushed : pushedOf id (m.pushBatch copied).srcPad = pushedOf id m.srcPad ++ ofPad id copied := by
      simp [NvStreamMux.pushBatch, pushedOf]
    rw [hpushed, queuedOf_congr (pad_congr rfl), show (LoopPc.reset out).inFlight = [] from rfl,
      ofPad_nil, List.append_nil]
    exact h.inOrder id
  | reset out => exact h.congr (fun _ => rfl) rfl fun _ => rfl

/-! ### Buffers and events arrive -/

theorem Kept.addBufferQueue {id : ℕ} {buffer : BufferWrapper} (h : Kept m c added)
    (hm : m.addBufferQueue id buffer = some m') :
    Kept m' c (Function.update added id (added id ++ [buffer])) := by
  unfold NvStreamMux.addBufferQueue at hm
  split at hm
  · cases hm
  · rename_i p hp
    cases hm
    refine ⟨h.synchBuffer, fun a => ?_⟩
    rw [queuedOf_setPad]
    have hold := h.inOrder a
    by_cases ha : a = id
    · subst ha
      rw [queuedOf_of_pad hp] at hold
      have hqueue : (if p.state = .idle then { p with switchedToActive := true } else p).queue =
          p.queue := by
        split <;> rfl
      rw [if_pos rfl, Function.update_self, SinkPad.queueEntry_queue, hqueue, buffersOf_append, ← hold]
      simp [NvStreamMux.setPad]
    · rw [if_neg ha, Function.update_of_ne ha]
      exact hold

/-- An event is queued on a pad. -/
theorem Kept.queueEvent {id : ℕ} {p q : SinkPad} {e : EventWrapper} (h : Kept m c added)
    (hp : m.pad id = some p) (hq : q.queue = p.queue ++ [.event e]) : Kept (m.setPad id q) c added :=
  h.setPad (by rw [queuedOf_of_pad hp, hq]; simp)

end NvStreamMux

namespace Sys

variable {ω : Type*} {copyBuf : CopyBuf ω}

/-- A start without synchronization of the buffers. -/
def StartedUnsynchronized (s : Sys ω) : Prop := ∃ config, s = new config ∧ ¬ config.synchBuffer

/-- No pad is removed or replaced, and the muxer is not stopped. -/
def OrderStepOk (s : Sys ω) : Action ω → Prop
  | .removePad _ | .removePadPoll _ | .handleStop => False
  | .addPad id => s.mux.pad id = none
  | _ => True

instance (s : Sys ω) : (a : Action ω) → Decidable (s.OrderStepOk a)
  | .removePad _ | .removePadPoll _ | .handleStop => inferInstanceAs (Decidable False)
  | .addPad id => inferInstanceAs (Decidable (s.mux.pad id = none))
  | .getPad _ | .resetPad _ | .setAllPadsEos _ | .addBufferLookup _ | .addBufferSize _ | .addBufferWait _
  | .addBufferQueue _ _ | .handleFlushStop _ | .handleEos _ _ | .handleEosCascaded _ _ | .handleSegment _ _
  | .handleStreamReset _ _ | .resetStop | .updatePadMimetype _ _ | .getPadMimetype _ | .setBatchSize _
  | .setNumSurfacesPerFrame _ | .pushEvents _ | .pushLoop _ | .loop _ => inferInstanceAs (Decidable True)

/-- The invariant of a run. -/
def OrderInv (s : Sys ω) : Prop := s.mux.Kept s.loop.inFlight s.added

theorem orderInv_step {s s' : Sys ω} {a : Action ω} (h : s.OrderInv) (hok : s.OrderStepOk a)
    (hs : s.step copyBuf a = some s') : s'.OrderInv := by
  cases a with
  | removePad _ | removePadPoll _ | handleStop => exact absurd hok id
  | getPad id | addBufferLookup id | getPadMimetype id =>
    cases hs
    exact h.lookup id
  | addPad id =>
    cases hs
    have hm : NvStreamMux.Kept { s.mux with
        batchPolicy := s.mux.batchPolicy.checkAndUpdateDefaults id
        allPadsEos := false } s.loop.inFlight s.added :=
      h.congr (fun _ => rfl) (checkAndUpdateDefaults_synchBuffer _ _) fun _ => rfl
    have hnil : s.mux.queuedOf id = [] := by
      rw [NvStreamMux.queuedOf, show s.mux.pad id = none from hok]
      rfl
    exact hm.setPad hnil.symm
  | resetPad id =>
    obtain ⟨m, hm, rfl⟩ := Option.map_eq_some_iff.mp hs
    unfold NvStreamMux.resetPad at hm
    split at hm
    · cases hm
    · rename_i p hp
      have hset : (s.mux.setPad id { p with eos := false }).Kept s.loop.inFlight s.added :=
        h.setPad (NvStreamMux.queuedOf_of_pad hp).symm
      dsimp only at hm
      repeat' split at hm
      all_goals
        cases hm
        show NvStreamMux.Kept _ s.loop.inFlight s.added
        first
          | exact h
          | exact hset.congr (NvStreamMux.pad_congr rfl) rfl fun _ => rfl
  | setAllPadsEos _ | resetStop | setBatchSize _ | setNumSurfacesPerFrame _ =>
    cases hs
    exact h.congr (fun _ => rfl) rfl fun _ => rfl
  | addBufferSize id =>
    obtain ⟨m, hm, rfl⟩ := Option.map_eq_some_iff.mp hs
    unfold NvStreamMux.addBufferSize at hm
    split at hm
    · cases hm
    · rename_i p hp
      cases hm
      dsimp only [onMux]
      split
      · exact NvStreamMux.Kept.setPad h (NvStreamMux.queuedOf_of_pad hp).symm
      · exact h
  | addBufferWait id =>
    obtain ⟨m, hm, rfl⟩ := Option.map_eq_some_iff.mp hs
    obtain ⟨p, hp, rfl⟩ := Option.map_eq_some_iff.mp hm
    refine NvStreamMux.Kept.setPad h ?_
    rw [SinkPad.waitIfQueueFull_queue]
    exact (NvStreamMux.queuedOf_of_pad hp).symm
  | addBufferQueue id buffer =>
    obtain ⟨m, hm, rfl⟩ := Option.map_eq_some_iff.mp hs
    exact h.addBufferQueue hm
  | handleFlushStop id =>
    cases hs
    have hl := h.lookup id
    unfold onMux NvStreamMux.handleFlushStop
    dsimp only
    split
    · exact hl
    · rename_i p hp
      have hm := hl.setPad (p := { p with state := .playing, switchedToActive := true })
        (NvStreamMux.queuedOf_of_pad hp).symm
      exact hm.congr (NvStreamMux.pad_congr rfl) rfl fun _ => rfl
  | handleEos id event =>
    cases hs
    have hl := h.lookup id
    unfold onMux NvStreamMux.handleEos
    dsimp only
    split
    · exact hl
    · rename_i p hp
      split
      · exact hl
      · exact hl.queueEvent (e := event) hp (by simp)
  | handleEosCascaded id event =>
    obtain ⟨m, hm, rfl⟩ := Option.map_eq_some_iff.mp hs
    unfold NvStreamMux.handleEosCascaded at hm
    split at hm
    · cases hm
    · rename_i p hp
      cases hm
      exact NvStreamMux.Kept.queueEvent (e := event) h hp (by simp)
  | handleSegment id event =>
    cases hs
    have hl := h.lookup id
    unfold onMux NvStreamMux.handleSegment
    dsimp only
    split
    · exact hl
    · rename_i p hp
      exact hl.queueEvent (e := event) hp (by simp)
  | handleStreamReset id event =>
    cases hs
    have hl := h.lookup id
    unfold onMux NvStreamMux.handleStreamReset
    dsimp only
    split
    · exact hl
    · rename_i p hp
      split <;> exact hl.queueEvent (e := event) hp (by simp)
  | updatePadMimetype id mimeType =>
    cases hs
    have hl := h.lookup id
    unfold onMux NvStreamMux.updatePadMimetype
    dsimp only
    split
    · exact hl
    · rename_i p hp
      exact hl.setPad (NvStreamMux.queuedOf_of_pad hp).symm
  | pushEvents order =>
    obtain ⟨m, hm, rfl⟩ := Option.map_eq_some_iff.mp hs
    exact h.pushEvents hm
  | pushLoop out =>
    simp only [step] at hs
    split at hs
    · rename_i hidle
      cases hs
      unfold OrderInv at h
      rw [hidle] at h
      exact h
    · cases hs
  | loop o =>
    obtain ⟨⟨m, pc⟩, hm, rfl⟩ := Option.map_eq_some_iff.mp hs
    exact NvStreamMux.Kept.loopStep h hm

/-- **No buffer is lost, duplicated or reordered.** On every pad the buffers of
the pushed batches, then those that are copied and about to be pushed, then
those in the queue are the buffers that were added; between two calls of
`push_loop`, and wherever it gives a batch up, none is copied. -/
theorem pushed_append_queued {s : Sys ω} (h : Reach (step copyBuf) OrderStepOk StartedUnsynchronized s)
    (id : ℕ) :
    pushedOf id s.mux.srcPad ++ ofPad id s.loop.inFlight ++ s.mux.queuedOf id = s.added id ∧
      (s.loop.inFlight = [] → pushedOf id s.mux.srcPad ++ s.mux.queuedOf id = s.added id) := by
  have hI : s.OrderInv := by
    refine h.invariant (I := OrderInv) ?_ fun _ _ _ hI hok hs => orderInv_step hI hok hs
    rintro _ ⟨config, rfl, hsync⟩
    exact ⟨hsync, fun id => by simp [new, NvStreamMux.new, pushedOf, LoopPc.inFlight,
      NvStreamMux.queuedOf, NvStreamMux.pad]⟩
  refine ⟨hI.inOrder id, fun hnone => ?_⟩
  have := hI.inOrder id
  rwa [hnone, ofPad_nil, List.append_nil] at this

/-- Two buffers with an event between them; `push_loop` takes the first, and is
about to push it. -/
def twoBuffers : List (Action GstBatchBufferWrapper) :=
  [.addPad 0, .addBufferLookup 0, .addBufferQueue 0 ⟨7, 1⟩, .handleSegment 0 .segment,
    .addBufferQueue 0 ⟨8, 1⟩, .pushLoop ⟨1, 0, []⟩] ++ List.replicate 6 (.loop onePad)

theorem pushed_append_queued_twoBuffers :
    let s := (exec (step GstBatchBufferWrapper.copyBuf) OrderStepOk (new plain) twoBuffers).get
      (by decide +kernel)
    pushedOf 0 s.mux.srcPad ++ ofPad 0 s.loop.inFlight ++ s.mux.queuedOf 0 = s.added 0 ∧
      (s.loop.inFlight = [] → pushedOf 0 s.mux.srcPad ++ s.mux.queuedOf 0 = s.added 0) :=
  pushed_append_queued (Reach.get_exec ⟨plain, rfl, by decide⟩ _) 0

end Sys
end Mux
end DeepStream
