/-
# Back pressure

A pad counts its buffers under a mutex of its own, and a producer that finds
more of them than the bound waits until `pop_buffer_done` notifies it. Every
way in which a buffer enters or leaves the queue keeps the counter exact but
one: `handle_stop` empties the queues and leaves the counters, and the
producers that wait, as they are. The condition on each section is exact.
-/
import DeepStream.Mux.Sections

namespace DeepStream
namespace Mux

/-! ### One pad -/

namespace SinkPad

variable {p q : SinkPad}

theorem Exact.congr (h : p.Exact) (hq : buffersOf q.queue = buffersOf p.queue)
    (hcount : q.bufferCount = p.bufferCount) (hmax : q.maxBufferCount = p.maxBufferCount)
    (hwaiting : q.waiting = p.waiting) : q.Exact where
  count := by rw [hcount, hq, h.count]
  lt := by rw [hcount]; exact h.lt
  waiting := by rw [hwaiting, hmax, hq]; exact h.waiting

theorem Exact.queueEvent (h : p.Exact) (e : EventWrapper) : (p.queueEntry (.event e)).Exact :=
  h.congr (by simp) rfl rfl rfl

/-- A buffer is counted, unless the counter wraps. -/
theorem Exact.queueBuffer_iff (h : p.Exact) (b : BufferWrapper) :
    (p.queueEntry (.buffer b)).Exact ↔ p.bufferCount + 1 < 2 ^ 64 := by
  have hlen : (buffersOf (p.queue ++ [.buffer b])).length = p.bufferCount + 1 := by
    simp [h.count]
  constructor
  · intro h'
    have hcount := h'.count
    have hlt := h'.lt
    rw [queueEntry_queue, hlen] at hcount
    omega
  · intro hlt
    have hadd : wrapAdd 64 p.bufferCount 1 = p.bufferCount + 1 := wrapAdd_of_lt hlt
    refine ⟨hadd.trans hlen.symm, by show wrapAdd 64 p.bufferCount 1 < _; omega, fun hw => ?_⟩
    have hold := h.waiting hw
    rw [queueEntry_queue, hlen, h.count]
    show p.maxBufferCount < _
    omega

theorem Exact.pushEvents (h : p.Exact) : p.pushEvents.1.Exact := by
  have hq := buffersOf_pushEvents p
  unfold SinkPad.pushEvents at hq ⊢
  split at hq
  · rename_i hb
    rw [if_pos hb]
    exact h.congr hq rfl rfl rfl
  · rename_i hb
    rw [if_neg hb]
    exact h.congr hq rfl rfl rfl

theorem Exact.waitIfQueueFull (h : p.Exact) : p.waitIfQueueFull.Exact := by
  unfold SinkPad.waitIfQueueFull
  split
  · rename_i hfull
    exact ⟨h.count, h.lt, fun _ => by rw [← h.count]; exact hfull.2⟩
  · exact h

/-- The bound may be raised up to the number of buffers that are queued while a
producer waits, and freely otherwise. -/
theorem Exact.setMax_iff (h : p.Exact) (n : ℕ) :
    { p with maxBufferCount := n }.Exact ↔ p.waiting = 0 ∨ n < p.bufferCount := by
  constructor
  · intro h'
    by_cases hw : p.waiting = 0
    · exact .inl hw
    · exact .inr (by rw [h.count]; exact h'.waiting hw)
  · rintro (hw | hn)
    · exact ⟨h.count, h.lt, fun hne => absurd hw hne⟩
    · exact ⟨h.count, h.lt, fun _ => by rw [← h.count]; exact hn⟩

/-- `reset` forgets the buffers that are counted. -/
theorem Exact.reset_iff (h : p.Exact) : p.reset.Exact ↔ buffersOf p.queue = [] := by
  constructor
  · intro h'
    have hcount : p.bufferCount = 0 := h'.count
    rwa [h.count, List.length_eq_zero_iff] at hcount
  · intro hnil
    exact h.congr hnil.symm rfl rfl rfl

end SinkPad

/-! ### All pads -/

namespace NvStreamMux

/-- The counter of every pad is exact. -/
def Exact (m : NvStreamMux) : Prop := ∀ id p, m.pad id = some p → p.Exact

variable {m m' : NvStreamMux}

theorem Exact.congr (h : m.Exact) (hpad : ∀ id, m'.pad id = m.pad id) : m'.Exact := fun id p hp =>
  h id p (hpad id ▸ hp)

theorem Exact.setPad (h : m.Exact) {id : ℕ} {q : SinkPad} (hq : q.Exact) : (m.setPad id q).Exact := by
  intro a p hp
  rw [pad_setPad] at hp
  split at hp
  · cases hp
    exact hq
  · exact h a p hp

/-- A pad is stored: whether the muxer is exact is up to that pad. -/
theorem Exact.setPad_iff (h : m.Exact) {id : ℕ} {q : SinkPad} : (m.setPad id q).Exact ↔ q.Exact :=
  ⟨fun h' => h' id q (by simp), h.setPad⟩

theorem Exact.lookup (h : m.Exact) (id : ℕ) : (m.lookup id).Exact := h.congr (pad_lookup m id)

theorem Exact.erasePad (h : m.Exact) (id : ℕ) : (m.erasePad id).Exact := by
  intro a p hp
  rw [pad_erase] at hp
  split at hp
  · cases hp
  · exact h a p hp

theorem Exact.pushEventsOfPad (h : m.Exact) (id : ℕ) : (m.pushEventsOfPad id).Exact := by
  cases hp : m.pad id with
  | none => rwa [pushEventsOfPad_none hp]
  | some p =>
    obtain ⟨m', q, hm, hs⟩ := pushEventsOfPad_eq hp
    have hm' : m'.Exact := h.congr hs.pad
    rw [hm]
    exact hm'.setPad (hs.exact (h id p hp).pushEvents)

theorem Exact.pushEvents (h : m.Exact) {order : List ℕ} (hm : m.pushEvents order = some m') : m'.Exact :=
  pushEvents_invariant (I := Exact) (fun _ id h => h.pushEventsOfPad id)
    (fun _ h => h.congr fun _ => rfl) h hm

theorem Exact.formBatch (h : m.Exact) {env : ℕ → OfferEnv} (hm : m.formBatch env = some m') : m'.Exact :=
  formBatch_invariant (I := Exact) (fun _ id p _ _ hp ht h => h.setPad (ht.exact (h id p hp)))
    (fun _ _ _ h => h.congr fun _ => rfl) h hm

section Loop

variable {ω : Type*} {copyBuf : CopyBuf ω}

theorem Exact.copyBatch (h : m.Exact) {out : ω} {order : List ℕ} {r : CopyState ω}
    (hr : m.copyBatch copyBuf out order = some r) : r.mux.Exact := by
  refine copyBatch_invariant (I := fun st => st.mux.Exact) (fun st count id hst => ?_) h hr
  cases hp : st.mux.pad id with
  | none =>
    rw [copySource_none copyBuf count hp]
    exact hst.lookup id
  | some p =>
    obtain ⟨m', q, copied, hm, -, -, hquiet, -, -, htrims, -⟩ := copySource_eq copyBuf count hp
    rw [hm]
    exact (hst.congr hquiet.pad).setPad (htrims.exact (hst id p hp))

theorem Exact.loopStep (h : m.Exact) {o : Outside} {pc pc' : LoopPc ω}
    (hm : m.loopStep copyBuf o pc = some (m', pc')) : m'.Exact := by
  cases loopStep_cases hm with
  | move => exact h
  | pushEvents order _ _ hm => exact h.pushEvents hm
  | formBatch env _ _ hm => exact h.formBatch hm
  | copy order hr => exact h.copyBatch hr
  | push out copied => exact h.congr fun _ => rfl
  | reset out => exact h.congr fun _ => rfl

end Loop

/-- Stopping keeps the counters exact only when no buffer is queued. -/
theorem Exact.handleStop_iff (h : m.Exact) :
    m.handleStop.Exact ↔ m.countPads (fun p => !(buffersOf p.queue).isEmpty) = 0 := by
  have hreset : ∀ p : SinkPad, (if m.frameNumResetOnEos then { p.reset with frameCount := 0 } else p.reset).Exact ↔
      p.reset.Exact := fun p => by
    split
    · exact ⟨fun h => ⟨h.count, h.lt, h.waiting⟩, fun h => ⟨h.count, h.lt, h.waiting⟩⟩
    · rfl
  rw [countPads_eq_zero]
  constructor
  · intro h' id p hp
    have hp' := h' id _ (by rw [pad_handleStop, hp]; rfl)
    have hnil := (h id p hp).reset_iff.mp ((hreset p).mp hp')
    simp [hnil]
  · intro hnone id q hq
    rw [pad_handleStop] at hq
    obtain ⟨p, hp, rfl⟩ := Option.map_eq_some_iff.mp hq
    have hnil := hnone id p hp
    exact (hreset p).mpr ((h id p hp).reset_iff.mpr (by simpa using hnil))

theorem Exact.removePad (h : m.Exact) {id : ℕ} {r : NvStreamMux × Bool} (hr : m.removePad id = some r) :
    r.1.Exact := by
  unfold NvStreamMux.removePad at hr
  split at hr
  · cases hr
    exact h
  · split at hr
    · cases hr
    · rename_i p hp
      have huncount : (if p.queue.length = 0 then m.uncountEos else m).Exact := by
        split
        · exact h.congr fun _ => rfl
        · exact h
      dsimp only at hr
      split at hr <;> cases hr
      · exact huncount.erasePad id
      · exact huncount

theorem Exact.removePadPoll (h : m.Exact) {id count : ℕ} {r : NvStreamMux × Bool}
    (hr : m.removePadPoll id count = some r) : r.1.Exact := by
  unfold NvStreamMux.removePadPoll at hr
  split at hr
  · cases hr
  · split at hr
    · cases hr
      exact h.erasePad id
    · split at hr <;> cases hr
      · exact h
      · exact Exact.erasePad (h.congr fun _ => rfl) id

theorem Exact.resetPad (h : m.Exact) {id : ℕ} (hm : m.resetPad id = some m') : m'.Exact := by
  unfold NvStreamMux.resetPad at hm
  split at hm
  · cases hm
  · rename_i p hp
    split at hm
    · have hset : (m.setPad id { p with eos := false }).Exact :=
        h.setPad ((h id p hp).congr rfl rfl rfl rfl)
      dsimp only at hm
      split at hm <;> cases hm
      · exact hset.congr fun _ => rfl
      · exact hset
    · cases hm
      exact h

/-- A buffer is queued, unless the counter of its pad wraps. -/
theorem Exact.addBufferQueue_iff (h : m.Exact) {id : ℕ} {b : BufferWrapper}
    (hm : m.addBufferQueue id b = some m') :
    m'.Exact ↔ (m.pad id).all fun p => decide (p.bufferCount + 1 < 2 ^ 64) := by
  unfold NvStreamMux.addBufferQueue at hm
  split at hm
  · cases hm
  · rename_i p hp
    cases hm
    rw [hp, Option.all_some, decide_eq_true_iff]
    refine (Exact.setPad_iff (h.congr fun _ => rfl)).trans ?_
    have hplaying (active : Bool) : { p with switchedToActive := active, state := .playing }.Exact :=
      (h id p hp).congr rfl rfl rfl rfl
    by_cases hidle : p.state = .idle
    · rw [if_pos hidle]
      exact (hplaying true).queueBuffer_iff b
    · rw [if_neg hidle]
      exact (hplaying p.switchedToActive).queueBuffer_iff b

/-- The bound of a pad is raised, unless a producer waits on it that should go on. -/
theorem Exact.addBufferSize_iff (h : m.Exact) {id : ℕ} (hm : m.addBufferSize id = some m') :
    m'.Exact ↔ (m.pad id).all fun p =>
      decide (p.waiting = 0 ∨ m.batchPolicy.getBatchSize m.inputs.size < p.bufferCount) := by
  unfold NvStreamMux.addBufferSize at hm
  split at hm
  · cases hm
  · rename_i p hp
    have hpad := h id p hp
    cases hm
    rw [hp, Option.all_some, decide_eq_true_iff]
    split
    · rw [Exact.setPad_iff h]
      exact hpad.setMax_iff _
    · rename_i hle
      refine iff_of_true h ?_
      by_cases hw : p.waiting = 0
      · exact .inl hw
      · have hfull := hpad.waiting hw
        have hcount := hpad.count
        exact .inr (by omega)

end NvStreamMux

/-! ### Runs -/

namespace Sys

variable {ω : Type*} {copyBuf : CopyBuf ω}

/-- What a section must not do: queue a buffer on a pad that holds 2 ^ 64 - 1 of
them, raise the bound of a pad to its count while a producer waits on it, or
stop while a buffer is queued. -/
def PressureStepOk (s : Sys ω) : Action ω → Prop
  | .addBufferQueue id _ => (s.mux.pad id).all fun p => decide (p.bufferCount + 1 < 2 ^ 64)
  | .addBufferSize id => (s.mux.pad id).all fun p =>
      decide (p.waiting = 0 ∨ s.mux.batchPolicy.getBatchSize s.mux.inputs.size < p.bufferCount)
  | .handleStop => s.mux.countPads (fun p => !(buffersOf p.queue).isEmpty) = 0
  | _ => True

instance (s : Sys ω) : (a : Action ω) → Decidable (s.PressureStepOk a)
  | .addBufferQueue id _ => inferInstanceAs (Decidable ((s.mux.pad id).all _ = true))
  | .addBufferSize id => inferInstanceAs (Decidable ((s.mux.pad id).all _ = true))
  | .handleStop => inferInstanceAs (Decidable (_ = 0))
  | .getPad _ | .addPad _ | .removePad _ | .removePadPoll _ | .resetPad _ | .setAllPadsEos _
  | .addBufferLookup _ | .addBufferWait _ | .handleFlushStop _ | .handleEos _ _ | .handleEosCascaded _ _
  | .handleSegment _ _ | .handleStreamReset _ _ | .resetStop | .updatePadMimetype _ _ | .getPadMimetype _
  | .setBatchSize _ | .setNumSurfacesPerFrame _ | .pushEvents _ | .pushLoop _ | .loop _ =>
    inferInstanceAs (Decidable True)

/-- A section keeps the counters exact if and only if it meets the condition. -/
theorem exact_step_iff {s s' : Sys ω} {a : Action ω} (h : s.mux.Exact) (hs : s.step copyBuf a = some s') :
    s'.mux.Exact ↔ s.PressureStepOk a := by
  cases a with
  | getPad id | addBufferLookup id | getPadMimetype id =>
    cases hs
    exact iff_of_true (h.lookup id) trivial
  | addPad id =>
    cases hs
    refine iff_of_true (NvStreamMux.Exact.setPad (h.congr fun _ => rfl) ?_) trivial
    exact ⟨rfl, by simp [SinkPad.new], by simp [SinkPad.new]⟩
  | removePad id =>
    obtain ⟨⟨m, waits⟩, hm, rfl⟩ := Option.map_eq_some_iff.mp hs
    have hexact := h.removePad hm
    refine iff_of_true ?_ trivial
    unfold removing
    split <;> exact hexact
  | removePadPoll i =>
    simp only [step] at hs
    split at hs
    · cases hs
    · obtain ⟨⟨m, waits⟩, hm, rfl⟩ := Option.map_eq_some_iff.mp hs
      have hexact := h.removePadPoll hm
      refine iff_of_true ?_ trivial
      unfold removing
      split <;> exact hexact
  | resetPad id =>
    obtain ⟨m, hm, rfl⟩ := Option.map_eq_some_iff.mp hs
    exact iff_of_true (h.resetPad hm) trivial
  | setAllPadsEos _ | resetStop | setBatchSize _ | setNumSurfacesPerFrame _ =>
    cases hs
    exact iff_of_true (h.congr fun _ => rfl) trivial
  | addBufferSize id =>
    obtain ⟨m, hm, rfl⟩ := Option.map_eq_some_iff.mp hs
    exact h.addBufferSize_iff hm
  | addBufferWait id =>
    obtain ⟨m, hm, rfl⟩ := Option.map_eq_some_iff.mp hs
    obtain ⟨p, hp, rfl⟩ := Option.map_eq_some_iff.mp hm
    exact iff_of_true (h.setPad (h id p hp).waitIfQueueFull) trivial
  | addBufferQueue id b =>
    obtain ⟨m, hm, rfl⟩ := Option.map_eq_some_iff.mp hs
    exact h.addBufferQueue_iff hm
  | handleEosCascaded id e =>
    obtain ⟨m, hm, rfl⟩ := Option.map_eq_some_iff.mp hs
    unfold NvStreamMux.handleEosCascaded at hm
    split at hm
    · cases hm
    · rename_i p hp
      cases hm
      exact iff_of_true (h.setPad ((h id p hp).queueEvent e)) trivial
  | handleFlushStop id =>
    cases hs
    have hl := h.lookup id
    refine iff_of_true ?_ trivial
    unfold onMux NvStreamMux.handleFlushStop
    dsimp only
    split
    · exact hl
    · rename_i p hp
      exact NvStreamMux.Exact.setPad (hl.congr fun _ => rfl) ((hl id p hp).congr rfl rfl rfl rfl)
  | handleEos id e =>
    cases hs
    have hl := h.lookup id
    refine iff_of_true ?_ trivial
    unfold onMux NvStreamMux.handleEos
    dsimp only
    split
    · exact hl
    · rename_i p hp
      split
      · exact hl
      · exact hl.setPad (((hl id p hp).queueEvent e).congr rfl rfl rfl rfl)
  | handleSegment id e =>
    cases hs
    have hl := h.lookup id
    refine iff_of_true ?_ trivial
    unfold onMux NvStreamMux.handleSegment
    dsimp only
    split
    · exact hl
    · rename_i p hp
      exact hl.setPad ((hl id p hp).queueEvent e)
  | handleStreamReset id e =>
    cases hs
    have hl := h.lookup id
    refine iff_of_true ?_ trivial
    unfold onMux NvStreamMux.handleStreamReset
    dsimp only
    split
    · exact hl
    · rename_i p hp
      have hq := (hl id p hp).queueEvent e
      split
      · exact hl.setPad (hq.congr rfl rfl rfl rfl)
      · exact hl.setPad hq
  | handleStop =>
    cases hs
    exact h.handleStop_iff
  | updatePadMimetype id mimeType =>
    cases hs
    have hl := h.lookup id
    refine iff_of_true ?_ trivial
    unfold onMux NvStreamMux.updatePadMimetype
    dsimp only
    split
    · exact hl
    · rename_i p hp
      exact hl.setPad ((hl id p hp).congr rfl rfl rfl rfl)
  | pushEvents order =>
    obtain ⟨m, hm, rfl⟩ := Option.map_eq_some_iff.mp hs
    exact iff_of_true (h.pushEvents hm) trivial
  | pushLoop out =>
    simp only [step] at hs
    split at hs
    · cases hs
      exact iff_of_true h trivial
    · cases hs
  | loop o =>
    obtain ⟨⟨m, pc⟩, hm, rfl⟩ := Option.map_eq_some_iff.mp hs
    exact iff_of_true (h.loopStep hm) trivial

/-- **The back pressure is exact.** In every run whose sections meet the
condition, under any interleaving, `buffer_count` is the number of buffers in
the queue of its pad, and a producer waits only while there are more of them
than the bound; and a section from such a state ends in one if and only if it
meets the condition. -/
theorem exact_run {s : Sys ω} (h : Reach (step copyBuf) PressureStepOk Started s) :
    s.mux.Exact ∧ ∀ a s', s.step copyBuf a = some s' → (s'.mux.Exact ↔ s.PressureStepOk a) := by
  have hexact : s.mux.Exact := by
    refine h.invariant (I := fun s : Sys ω => s.mux.Exact) ?_ fun _ _ _ hI hok hs => (exact_step_iff hI hs).mpr hok
    rintro _ ⟨config, rfl⟩ id p hp
    simp [NvStreamMux.pad, new, NvStreamMux.new] at hp
  exact ⟨hexact, fun a s' hs => exact_step_iff hexact hs⟩

/-- One buffer may be queued; two are, and a producer waits. -/
def fullQueue : List (Action GstBatchBufferWrapper) :=
  [.addPad 0, .addBufferSize 0, .addBufferQueue 0 ⟨7, 1⟩, .addBufferQueue 0 ⟨8, 1⟩, .addBufferWait 0]

/-- `push_loop` takes one of the buffers and notifies the producer. -/
def drainedQueue : List (Action GstBatchBufferWrapper) :=
  fullQueue ++ [.pushLoop ⟨1, 0, []⟩] ++ List.replicate 10 (.loop onePad)

theorem exact_run_drainedQueue :
    let s := (exec (step GstBatchBufferWrapper.copyBuf) PressureStepOk (new plain) drainedQueue).get
      (by decide +kernel)
    s.mux.Exact ∧ ∀ a s', s.step GstBatchBufferWrapper.copyBuf a = some s' → (s'.mux.Exact ↔ s.PressureStepOk a) :=
  exact_run (Reach.get_exec ⟨plain, rfl⟩ _)

/-- The muxer is stopped while a producer waits: the queue is empty, both
buffers are still counted, and the producer goes on waiting. -/
theorem stopped_waits : ∃ s : Sys GstBatchBufferWrapper,
    Reach (step GstBatchBufferWrapper.copyBuf) anyStep Started s ∧
      ∃ p, s.mux.pad 0 = some p ∧ p.bufferCount = 2 ∧ p.queue = [] ∧ p.waiting = 1 := by
  refine ⟨_, Reach.get_exec (s := new plain) (l := fullQueue ++ [.handleStop]) ⟨plain, rfl⟩ (by decide +kernel),
    _, Option.some_get (by decide +kernel) |>.symm, ?_⟩
  decide +kernel

end Sys
end Mux
end DeepStream
