/-
# Flush markers

Serialized events and model updates push a marker and wait until both queues are
empty, the input queue first. Nothing is queued meanwhile, so the marker is the
last batch to leave: when the wait ends nothing is left before it, in the queues
or in a thread's hands. `flushDataUnlock` pushes its marker on the input queue
also when tensors come from metadata and no thread pops that queue. Then the wait
never ends; otherwise it always can.
-/
import DeepStream.NvInfer.Steps

namespace DeepStream
namespace NvInfer

open Infer (CFloat)

/-! ### The queues -/

namespace Queues

variable {q q' : Queues}

/-- Each batch that was queued is through the output thread, was refused by the
context, or is on its way. -/
def Accounted (q : Queues) : Prop := q.queued.Perm (q.finished ++ q.refused ++ q.line)

/-- A marker is the last batch, and what is before it is still in front of it. -/
structure MarkerBehind (q : Queues) : Prop where
  input : ∀ b ∈ q.inputQueue.getLast?, b.eventMarker = true
  inputDone : q.inputQueue = [] → q.inputLoop = .waiting
  process : q.inputQueue = [] → ∀ e ∈ q.processQueue.getLast?, e.1.eventMarker = true
  outputDone : q.inputQueue = [] → q.processQueue = [] → q.outputLoop = .waiting

theorem MarkerBehind.line_eq_nil (h : q.MarkerBehind) (hi : q.inputQueue = []) (hp : q.processQueue = []) :
    q.line = [] := by
  simp [line, hi, hp, h.inputDone hi, h.outputDone hi hp, InputLoop.held, OutputLoop.held]

theorem MarkerBehind.pushInput (q : Queues) : (q.pushInput .marker).MarkerBehind := by
  have hne : (q.pushInput .marker).inputQueue ≠ [] := by simp [Queues.pushInput]
  exact ⟨by simp [Queues.pushInput, GstNvInferBatch.marker], fun h => absurd h hne, fun h => absurd h hne,
    fun h => absurd h hne⟩

theorem MarkerBehind.pushProcess (hi : q.inputQueue = []) (hl : q.inputLoop = .waiting) :
    (q.pushProcess .marker none).MarkerBehind where
  input := by simp [Queues.pushProcess, hi]
  inputDone _ := hl
  process _ := by simp [Queues.pushProcess, GstNvInferBatch.marker]
  outputDone _ h := by simp [Queues.pushProcess] at h

theorem Accounted.pushInput (h : q.Accounted) (b : GstNvInferBatch) : (q.pushInput b).Accounted := by
  rw [Accounted, line_pushInput, ← List.append_assoc]
  exact h.append_right [b]

theorem Accounted.pushProcess (h : q.Accounted) (b : GstNvInferBatch) (ctx : Option ℕ) :
    (q.pushProcess b ctx).Accounted := by
  rw [Accounted, List.perm_iff_count] at h ⊢
  intro x
  have hx := h x
  simp only [line, List.count_append] at hx
  simp only [Queues.pushProcess, line, List.map_append, List.map_cons, List.map_nil, List.count_append]
  omega

/-- The output thread pushes the buffers of push batches. -/
def Pushing (q : Queues) : Prop := ∀ b, q.outputLoop = .pushing b → b.pushBuffer = true

/-- What a step of a worker thread keeps. -/
structure Drains (q q' : Queues) : Prop where
  accounted : q.Accounted → q'.Accounted
  pushing : q.Pushing → q'.Pushing
  behind : q.MarkerBehind → q'.MarkerBehind
  input : q.inputQueue = [] → q'.inputQueue = []

theorem drains_inputPop {ctx : ℕ} (h : q.inputPop ctx = some q') : q.Drains q' := by
  have hline := line_inputPop h
  obtain ⟨b, rest, hl, hq, ⟨hp, rfl⟩ | ⟨hp, rfl⟩⟩ := inputPop_eq_some h
  · refine ⟨fun ha => by rwa [Accounted, hline], id, fun hb => ?_, by simp [hq]⟩
    have hlast := hb.input
    rw [hq] at hlast
    -- the last batch of the input queue is a marker, and stays the last one
    refine ⟨fun x hx => hlast x (List.mem_getLast?_cons hx), fun _ => hl, fun hr => ?_, by simp⟩
    · obtain rfl : rest = [] := hr
      simpa using hlast b (by simp)
  · refine ⟨fun ha => by rwa [Accounted, hline], id, fun hb => ?_, by simp [hq]⟩
    have hlast := hb.input
    rw [hq] at hlast
    have hne : rest ≠ [] := by
      rintro rfl
      have hm := hlast b (by simp)
      simp [GstNvInferBatch.passed, hm] at hp
    exact ⟨fun x hx => hlast x (List.mem_getLast?_cons hx), fun hr => absurd hr hne, fun hr => absurd hr hne,
      fun hr => absurd hr hne⟩

theorem drains_inputQueued {status : NvDsInferStatus} (h : q.inputQueued status = some q') : q.Drains q' := by
  have hline := line_inputQueued h
  obtain ⟨b, ctx, hl, hcase⟩ := inputQueued_eq_some h
  have hbusy (hb : q.MarkerBehind) : q.inputQueue ≠ [] := by
    intro hi
    have hwaiting := hb.inputDone hi
    simp [hl] at hwaiting
  obtain ⟨hst, rfl⟩ | ⟨hst, rfl⟩ := hcase
  · obtain ⟨-, hline⟩ := hline.resolve_right fun hr => hr.1 hst
    refine ⟨fun ha => by rwa [Accounted, hline], id, fun hb => ?_, id⟩
    have hne := hbusy hb
    exact ⟨hb.input, fun _ => rfl, fun hi => absurd hi hne, fun hi => absurd hi hne⟩
  · obtain ⟨-, b', before, hheld, hold, hnew⟩ := hline.resolve_left fun hr => hst hr.1
    obtain rfl : b = b' := by simpa [hl, InputLoop.held] using hheld
    refine ⟨fun ha => ?_, id, fun hb => ?_, id⟩
    · rw [Accounted, hold] at ha
      rw [Accounted, hnew]
      refine ha.trans ?_
      simp only [List.append_assoc, List.singleton_append]
      exact (List.perm_middle.append_left _).append_left _
    · have hne := hbusy hb
      exact ⟨hb.input, fun _ => rfl, fun hi => absurd hi hne, fun hi => absurd hi hne⟩

/-- The batch that leaves first is finished. -/
theorem Accounted.finish (h : q.Accounted) {b : GstNvInferBatch} (hline : q.line = b :: q'.line)
    (hq : q'.queued = q.queued) (hf : q'.finished = q.finished ++ [b]) (hr : q'.refused = q.refused) :
    q'.Accounted := by
  rw [Accounted, hline] at h
  rw [Accounted, hq, hf, hr]
  refine h.trans (List.perm_middle.trans ?_)
  simp only [List.append_assoc]
  exact List.perm_middle.symm

/-- The output thread takes the first batch of the process queue in its hands;
a marker it does not keep. -/
theorem drains_take {b : GstNvInferBatch} {c : Option ℕ} {entries : List (GstNvInferBatch × Option ℕ)}
    {loop : OutputLoop} (hl : q.outputLoop = .waiting) (hq : q.processQueue = (b, c) :: entries)
    (hm : b.eventMarker = false) (hloop : loop.held = [b]) (hp : ∀ b, loop = .pushing b → b.pushBuffer = true) :
    q.Drains { q with processQueue := entries, outputLoop := loop } := by
  refine ⟨fun ha => by rwa [Accounted, line_take hl hq hloop], fun _ => hp, fun hb => ?_, id⟩
  have hne (hi : q.inputQueue = []) : entries ≠ [] := by
    rintro rfl
    have hlast := hb.process hi (b, c) (by simp [hq])
    simp [hm] at hlast
  refine ⟨hb.input, hb.inputDone, fun hi e he => hb.process hi e ?_, fun hi he => absurd he (hne hi)⟩
  rw [hq]
  exact List.mem_getLast?_cons he

theorem drains_pop {b : GstNvInferBatch} {c : Option ℕ} {entries : List (GstNvInferBatch × Option ℕ)}
    (hl : q.outputLoop = .waiting) (hq : q.processQueue = (b, c) :: entries) :
    q.Drains ({ q with processQueue := entries }.finish b) := by
  refine ⟨fun ha => ha.finish (line_pop hl hq) rfl rfl rfl, fun _ => by simp [Pushing, finish], fun hb => ?_, id⟩
  refine ⟨hb.input, hb.inputDone, fun hi e he => hb.process hi e ?_, fun _ _ => rfl⟩
  rw [hq]
  exact List.mem_getLast?_cons he

theorem drains_held {loop : OutputLoop} (hloop : loop.held = q.outputLoop.held)
    (hw : q.outputLoop ≠ .waiting) (hp : ∀ b, loop = .pushing b → b.pushBuffer = true) :
    q.Drains { q with outputLoop := loop } := by
  refine ⟨fun ha => by rwa [Accounted, line_held hloop], fun _ => hp, fun hb => ?_, id⟩
  exact ⟨hb.input, hb.inputDone, hb.process, fun hi hp => absurd (hb.outputDone hi hp) hw⟩

theorem drains_finish {b : GstNvInferBatch} (hb : q.outputLoop.held = [b]) : q.Drains (q.finish b) :=
  ⟨fun ha => ha.finish (line_finish hb) rfl rfl rfl, fun _ => by simp [Pushing, finish],
    fun hm => ⟨hm.input, hm.inputDone, hm.process, fun _ _ => rfl⟩, id⟩

end Queues

/-! ### The element -/

namespace GstNvInfer

variable {R : Type*} {s s' : GstNvInfer R}

/-- A marker waits behind whatever was queued before it; without an input-queue
thread only `flushDataUnlock` uses the input queue. -/
structure Wired (s : GstNvInfer R) : Prop where
  fits : s.submit.Fits s.cfg
  tensor : s.cfg.inputTensorFromMeta = true → s.queues.inputLoop = .waiting ∧
    (s.queues.inputQueue = [] ∨ ∃ buf ctx processOnly, s.submit = .flushing buf ctx processOnly)
  behind : s.submit.waits ≠ none → s.queues.MarkerBehind
  processOnly : s.submit.waits = some true → s.queues.inputQueue = []
  accounted : s.queues.Accounted
  pushing : s.queues.Pushing

theorem Wired.fits_of (h : s.Wired) {phase : Submit R} (hp : s.submit = phase) : phase.Fits s.cfg := hp ▸ h.fits

/-- Where tensors are taken, nothing is flushed in the phases of a buffer. -/
theorem Wired.inputQueue_eq_nil (h : s.Wired) (ht : s.cfg.inputTensorFromMeta = true)
    (hs : ∀ buf ctx processOnly, s.submit ≠ .flushing buf ctx processOnly) : s.queues.inputQueue = [] := by
  obtain hi | ⟨buf, ctx, processOnly, hf⟩ := (h.tensor ht).2
  · exact hi
  · exact absurd hf (hs buf ctx processOnly)

/-- The streaming thread goes on without touching the queues. -/
theorem Wired.streams (h : s.Wired) (hcfg : s'.cfg = s.cfg) (hq : s'.queues = s.queues)
    (hfits : s'.submit.Fits s.cfg) (hwaits : s'.submit.waits = none)
    (hi : s.cfg.inputTensorFromMeta = true → s.queues.inputQueue = []) : s'.Wired where
  fits := hcfg ▸ hfits
  tensor ht := by
    rw [hcfg] at ht
    rw [hq]
    exact ⟨(h.tensor ht).1, .inl (hi ht)⟩
  behind hw := absurd hwaits hw
  processOnly hw := by simp [hwaits] at hw
  accounted := hq ▸ h.accounted
  pushing := hq ▸ h.pushing

/-- The streaming thread queues a batch, without waiting for it. -/
theorem Wired.queues (h : s.Wired) (hcfg : s'.cfg = s.cfg) (hfits : s'.submit.Fits s.cfg)
    (hwaits : s'.submit.waits = none) (b : GstNvInferBatch) (ctx : Option ℕ)
    (hq : s.cfg.inputTensorFromMeta = false ∧ s'.queues = s.queues.pushInput b ∨
      s.cfg.inputTensorFromMeta = true ∧ s.queues.inputQueue = [] ∧ s'.queues = s.queues.pushProcess b ctx) :
    s'.Wired := by
  obtain ⟨ht, hq⟩ | ⟨ht, hi, hq⟩ := hq
  · exact ⟨hcfg ▸ hfits, fun htrue => by simp [hcfg, ht] at htrue, fun hw => absurd hwaits hw,
      fun hw => by simp [hwaits] at hw, hq ▸ h.accounted.pushInput b, hq ▸ h.pushing⟩
  · exact ⟨hcfg ▸ hfits, fun _ => by rw [hq]; exact ⟨(h.tensor ht).1, .inl hi⟩, fun hw => absurd hwaits hw,
      fun hw => by simp [hwaits] at hw, hq ▸ h.accounted.pushProcess b ctx, hq ▸ h.pushing⟩

/-- A worker thread makes a step. -/
theorem Wired.drains (h : s.Wired) (hcfg : s'.cfg = s.cfg) (hsubmit : s'.submit = s.submit)
    (hd : s.queues.Drains s'.queues)
    (hl : s.cfg.inputTensorFromMeta = true → s.queues.inputLoop = .waiting → s'.queues.inputLoop = .waiting) :
    s'.Wired where
  fits := by rw [hcfg, hsubmit]; exact h.fits
  tensor ht := by
    rw [hcfg] at ht
    rw [hsubmit]
    exact ⟨hl ht (h.tensor ht).1, (h.tensor ht).2.imp_left hd.input⟩
  behind hw := hd.behind (h.behind (hsubmit ▸ hw))
  processOnly hw := hd.input (h.processOnly (hsubmit ▸ hw))
  accounted := hd.accounted h.accounted
  pushing := hd.pushing h.pushing

theorem Wired.idle_enqueue (h : s.Wired) (hs : ∀ buf ctx processOnly, s.submit ≠ .flushing buf ctx processOnly)
    (b : GstNvInferBatch) :
    s.cfg.inputTensorFromMeta = false ∧ s.enqueue b = s.queues.pushInput b ∨
      s.cfg.inputTensorFromMeta = true ∧ s.queues.inputQueue = [] ∧ s.enqueue b = s.queues.pushProcess b none := by
  by_cases ht : s.cfg.inputTensorFromMeta = true
  · exact .inr ⟨ht, h.inputQueue_eq_nil ht hs, by simp [enqueue, ht]⟩
  · exact .inl ⟨by simpa using ht, by simp [enqueue, ht]⟩

/-- What is queued outside a flush is the last batch of the line. -/
theorem Wired.line_enqueue (h : s.Wired) (hs : ∀ buf ctx processOnly, s.submit ≠ .flushing buf ctx processOnly)
    {b : GstNvInferBatch} : (s.enqueue b).line = s.queues.line ++ [b] := by
  obtain ⟨-, hq⟩ | ⟨ht, hi, hq⟩ := h.idle_enqueue hs b
  · rw [hq, Queues.line_pushInput]
  · rw [hq, Queues.line_pushProcess _ _ (h.tensor ht).1 hi]

/-- A thread pushes a marker and waits. -/
theorem Wired.waits (h : s.Wired) (hcfg : s'.cfg = s.cfg) (hfits : s'.submit.Fits s.cfg)
    (hwaits : s'.submit.waits = some false)
    (hq : s'.queues = s.queues.pushInput .marker ∧
        (s.cfg.inputTensorFromMeta = true → ∃ buf ctx processOnly, s'.submit = .flushing buf ctx processOnly) ∨
      s.cfg.inputTensorFromMeta = true ∧ s.queues.inputQueue = [] ∧
        s'.queues = s.queues.pushProcess .marker none) : s'.Wired := by
  obtain ⟨hq, hf⟩ | ⟨ht, hi, hq⟩ := hq
  · refine ⟨hcfg ▸ hfits, fun ht => ?_, fun _ => hq ▸ .pushInput _, fun hw => by simp [hwaits] at hw,
      hq ▸ h.accounted.pushInput _, hq ▸ h.pushing⟩
    rw [hcfg] at ht
    rw [hq]
    exact ⟨(h.tensor ht).1, .inr (hf ht)⟩
  · have hl := (h.tensor ht).1
    refine ⟨hcfg ▸ hfits, fun _ => by rw [hq]; exact ⟨hl, .inl hi⟩, fun _ => hq ▸ .pushProcess hi hl,
      fun hw => by simp [hwaits] at hw, hq ▸ h.accounted.pushProcess _ _, hq ▸ h.pushing⟩

/-- The input queue is empty: the wait is for the process queue now. -/
theorem Wired.goesOn (h : s.Wired) (hcfg : s'.cfg = s.cfg) (hq : s'.queues = s.queues)
    (hfits : s'.submit.Fits s.cfg) (hwaits : s.submit.waits ≠ none) (hi : s.queues.inputQueue = []) : s'.Wired where
  fits := hcfg ▸ hfits
  tensor ht := by
    rw [hcfg] at ht
    rw [hq]
    exact ⟨(h.tensor ht).1, .inl hi⟩
  behind _ := hq ▸ h.behind hwaits
  processOnly _ := hq ▸ hi
  accounted := hq ▸ h.accounted
  pushing := hq ▸ h.pushing

/-- The input queue is empty when a wait has come to its end. -/
theorem Wired.inputQueue_of_emptied (h : s.Wired) {processOnly ended : Bool} (hw : s.submit.waits = some processOnly)
    (he : s.queues.emptied processOnly = some ended) : s.queues.inputQueue = [] := by
  cases processOnly with
  | true => exact h.processOnly hw
  | false => exact (Queues.emptied_eq_some he).1 rfl

/-- Nothing is left in front of a marker when the wait for it ends. -/
theorem Wired.line_eq_nil (h : s.Wired) {processOnly : Bool} (hw : s.submit.waits = some processOnly)
    (he : s.queues.emptied processOnly = some true) : s.queues.line = [] :=
  (h.behind (by simp [hw])).line_eq_nil (h.inputQueue_of_emptied hw he) ((Queues.emptied_eq_some he).2.1 rfl)

/-! ### Waiting for a marker -/

/-- The thread that waits finds both queues empty. -/
def WaitOver (s : GstNvInfer R) : Prop :=
  ∃ processOnly, s.submit.waits = some processOnly ∧ s.queues.emptied processOnly = some true

/-- A thread waits for a marker, and it and every worker thread that there is have
to wait until another one queues something. -/
structure Blocked (s : GstNvInfer R) : Prop where
  waits : ∃ processOnly, s.submit.waits = some processOnly ∧ s.queues.emptied processOnly = none
  inputLoop : s.cfg.inputTensorFromMeta = false → s.queues.inputLoop = .waiting ∧ s.queues.inputQueue = []
  outputLoop : s.queues.outputLoop = .waiting ∧ s.queues.processQueue = []

/-- The streaming thread does not find a new model while tensors come from
metadata. -/
def MarkerStepOk (s : GstNvInfer R) (a : Action R) : Prop :=
  match a with
  | .submitInputBuffer _ => s.cfg.inputTensorFromMeta = true → s.impl.nextContextReplacement = none
  | _ => True

instance instDecidableMarkerStepOk (s : GstNvInfer R) (a : Action R) : Decidable (s.MarkerStepOk a) :=
  match a with
  | .submitInputBuffer _ =>
    inferInstanceAs (Decidable (s.cfg.inputTensorFromMeta = true → s.impl.nextContextReplacement = none))
  | .flushed | .processFrame _ | .processWork _ | .pushBatch _ | .endObjects | .tensorBatch _ _ | .endTensors _
  | .pushBuffer | .sinkEvent _ | .eventFlushed | .inputPop | .inputQueued _ | .outputPop | .outputPush
  | .outputContext | .outputDequeued _ _ | .loadModel | .loadFailed | .triggerContextReplace =>
    inferInstanceAs (Decidable True)

/-- The marker of `flushDataUnlock` is on a queue that no thread pops. -/
structure Lost (s : GstNvInfer R) : Prop where
  tensor : s.cfg.inputTensorFromMeta = true
  marker : ∃ b ∈ s.queues.inputQueue, b.eventMarker = true
  flushing : ∃ buf ctx, s.submit = .flushing buf ctx false

theorem not_blocked (hi : s.cfg.inputTensorFromMeta = true → s.queues.inputQueue = []) : ¬ s.Blocked := by
  rintro ⟨⟨processOnly, -, he⟩, hin, -, hout⟩
  have hinput : s.queues.inputQueue = [] := by
    by_cases ht : s.cfg.inputTensorFromMeta = true
    · exact hi ht
    · exact (hin (by simpa using ht)).2
  simp [Queues.emptied, hinput, hout] at he

/-- No batch is left before the marker when the wait ends. -/
theorem Wired.barrier (h : s.Wired) (hw : s.WaitOver) : s.queues.line = [] ∧
    s.queues.queued.Perm (s.queues.finished ++ s.queues.refused) ∧
      (s.queues.queued.Perm s.queues.finished ↔ s.queues.refused = []) := by
  obtain ⟨processOnly, hwaits, he⟩ := hw
  have hline := h.line_eq_nil hwaits he
  have hperm : s.queues.queued.Perm (s.queues.finished ++ s.queues.refused) := by
    simpa [Queues.Accounted, hline] using h.accounted
  refine ⟨hline, hperm, fun hall => ?_, fun hnone => by simpa [hnone] using hperm⟩
  have hlen := hperm.length_eq.symm.trans hall.length_eq
  rw [List.length_append] at hlen
  exact List.length_eq_zero_iff.mp (by omega)

/-! ### What the steps keep -/

theorem wired_start (cfg : Settings) (interval : ℕ) : (start R cfg interval).Wired where
  fits := trivial
  tensor _ := ⟨rfl, .inl rfl⟩
  behind hw := absurd rfl hw
  processOnly hw := by cases hw
  accounted := List.Perm.nil
  pushing _ hl := by cases hl

variable [CFloat R] {a : Action R}

theorem wired_step (h : s.Wired) (hs : s.step a = some s') : s'.Wired := by
  cases step_cases hs with
  | begins hidle hn hb =>
    have hbegins := s.beginBuffer_frame hb
    exact h.streams hbegins.cfg hbegins.queues hbegins.fits hbegins.waits
      fun ht => h.inputQueue_eq_nil ht (by simp [hidle])
  | flush hidle hn => exact h.waits rfl trivial rfl (.inl ⟨rfl, fun _ => ⟨_, _, _, rfl⟩⟩)
  | flushGoesOn hf he => exact h.goesOn rfl rfl trivial (by simp [hf, Submit.waits]) (h.inputQueue_of_emptied (by rw [hf]; rfl) he)
  | flushEnds hf he hb =>
    have hbegins := GstNvInfer.beginBuffer_frame _ hb
    exact h.streams hbegins.cfg hbegins.queues hbegins.fits hbegins.waits
      fun _ => h.inputQueue_of_emptied (by rw [hf]; rfl) he
  | frame hp =>
    rename_i ok buffer f i rest batch
    obtain ⟨hcfg, hb⟩ := h.fits_of hp
    unfold processFrame
    dsimp only
    split
    · have hfill := GstNvInferBatch.filling_getD (b := { inbuf := some buffer }) hb ⟨rfl, rfl⟩
      split
      · exact h.queues rfl ⟨hcfg, by simp⟩ rfl _ none (.inl ⟨hcfg.1, rfl⟩)
      · refine h.streams rfl rfl ⟨hcfg, fun b hmem => ?_⟩ rfl (by simp [hcfg.1])
        obtain rfl := Option.some.inj hmem
        exact hfill
    · exact h.streams rfl rfl trivial rfl (by simp [hcfg.1])
  | framesEnd hp =>
    exact h.streams rfl rfl trivial rfl fun ht => h.inputQueue_eq_nil ht (by simp [hp])
  | work hp hany =>
    rename_i ok buffer w rest batch
    obtain ⟨hcfg, hb⟩ := h.fits_of hp
    have hsame := s.processWork_untouched buffer rest batch ok w
    obtain hsub | ⟨batch', hsub, hfill⟩ := s.processWork_submit buffer rest batch ok w
    · exact h.streams hsame.cfg hsame.queues (by rw [hsub]; trivial) (by rw [hsub]; rfl) (by simp [hcfg.1])
    · exact h.streams hsame.cfg hsame.queues (by rw [hsub]; exact ⟨hcfg, hfill hb⟩) (by rw [hsub]; rfl)
        (by simp [hcfg.1])
  | pushBatch hp =>
    obtain ⟨hcfg, -⟩ := h.fits_of hp
    unfold GstNvInfer.pushBatch
    split
    · exact h.queues rfl ⟨hcfg, by simp⟩ rfl _ none (.inl ⟨hcfg.1, rfl⟩)
    · exact h.streams rfl rfl trivial rfl (by simp [hcfg.1])
  | objectsEnd hp =>
    have hsame := s.cleanupHistoryMap_untouched
    exact h.streams hsame.cfg hsame.queues trivial rfl fun ht => h.inputQueue_eq_nil ht (by simp [hp])
  | tensorBatch hp hne hle =>
    rename_i buffer frames status
    have ht : s.cfg.inputTensorFromMeta = true := h.fits_of hp
    have hi := h.inputQueue_eq_nil ht (by simp [hp])
    unfold GstNvInfer.tensorBatch
    cases status with
    | success => exact h.queues rfl h.fits (by simp [hp, Submit.waits]) _ _ (.inr ⟨ht, hi, rfl⟩)
    | memError => exact h
    | failed => exact h.streams rfl rfl trivial rfl fun _ => hi
  | tensorsEnd hp =>
    rename_i buffer ok
    have hi (ht : s.cfg.inputTensorFromMeta = true) := h.inputQueue_eq_nil ht (by simp [hp])
    cases ok with
    | true => exact h.streams rfl rfl trivial rfl hi
    | false => exact h.streams rfl rfl trivial rfl hi
  | pushBuffer hp =>
    have hi (ht : s.cfg.inputTensorFromMeta = true) := h.inputQueue_eq_nil ht (by simp [hp])
    unfold GstNvInfer.pushBuffer
    split
    · exact h.streams rfl rfl trivial rfl hi
    · exact h.queues rfl trivial rfl _ none (h.idle_enqueue (by simp [hp]) _)
  | event hidle =>
    rename_i e
    have hnot (buf ctx processOnly) : s.submit ≠ .flushing buf ctx processOnly := by simp [hidle]
    unfold GstNvInfer.sinkEvent
    split
    · rename_i hser
      refine h.waits rfl hser.2 rfl ((h.idle_enqueue hnot .marker).imp (fun hq => ⟨hq.2, ?_⟩) id)
      simp [hq.1]
    · have hsame := s.handleEvent_untouched e
      exact h.streams hsame.cfg hsame.queues (by rw [handleEvent_submit]; trivial) (by rw [handleEvent_submit]; rfl)
        fun ht => h.inputQueue_eq_nil ht hnot
  | eventGoesOn hf he =>
    have hfits := h.fits_of hf
    exact h.goesOn rfl rfl hfits (by simp [hf, Submit.waits]) (h.inputQueue_of_emptied (by rw [hf]; rfl) he)
  | eventEnds hf he =>
    rename_i e processOnly
    have hsame := s.handleEvent_untouched e
    exact h.streams hsame.cfg hsame.queues (by rw [handleEvent_submit]; trivial) (by rw [handleEvent_submit]; rfl)
      fun _ => h.inputQueue_of_emptied (by rw [hf]; rfl) he
  | inputPop ht hq => exact h.drains rfl rfl (Queues.drains_inputPop hq) (by simp [ht])
  | inputQueued hq =>
    refine h.drains rfl rfl (Queues.drains_inputQueued hq) fun _ hl => ?_
    obtain ⟨b, ctx, hl', -⟩ := Queues.inputQueued_eq_some hq
    simp [hl] at hl'
  | outputMarker hl hq hm => exact h.drains rfl rfl (Queues.drains_pop hl hq) fun _ hw => hw
  | outputPending hl hq hm hf hp ha => exact h.drains rfl rfl (Queues.drains_pop hl hq) fun _ hw => hw
  | outputTakesPush hl hq hm hp =>
    refine h.drains rfl rfl (Queues.drains_take hl hq hm rfl fun b' hb' => ?_) fun _ hw => hw
    obtain rfl := OutputLoop.pushing.inj hb'
    exact hp
  | outputTakes hl hq hm hf hp =>
    exact h.drains rfl rfl (Queues.drains_take hl hq hm rfl (by simp)) fun _ hw => hw
  | outputPush hl => exact h.drains rfl rfl (Queues.drains_finish (by rw [hl]; rfl)) fun _ hw => hw
  | outputContext hl =>
    exact h.drains rfl rfl (Queues.drains_held (by rw [hl]; rfl) (by simp [hl]) (by simp)) fun _ hw => hw
  | outputAttach hl ha =>
    have hat := s.outputAttach_frame ha
    refine h.drains hat.cfg hat.submit (hat.queues ▸ Queues.drains_finish (by rw [hl]; rfl)) fun _ hw => ?_
    rw [hat.queues]
    exact hw
  | outputFails hl hst => exact h.drains rfl rfl (Queues.drains_finish (by rw [hl]; rfl)) fun _ hw => hw
  | loadModel hl => exact ⟨h.fits, h.tensor, h.behind, h.processOnly, h.accounted, h.pushing⟩
  | loadFailed hl => exact ⟨h.fits, h.tensor, h.behind, h.processOnly, h.accounted, h.pushing⟩
  | triggerContextReplace hl => exact ⟨h.fits, h.tensor, h.behind, h.processOnly, h.accounted, h.pushing⟩

theorem wired_run {ok : GstNvInfer R → Action R → Prop} (h : Reach step ok Started s) : s.Wired := by
  refine h.invariant (I := Wired) ?_ fun _ _ _ hI _ hs => wired_step hI hs
  rintro _ ⟨cfg, interval, rfl⟩
  exact wired_start cfg interval

/-! ### Runs -/

/-- A flush is the answer to a new model. -/
theorem flushing_of_step {buf : GstBuffer R} {ctx : ℕ} {processOnly : Bool} (hs : s.step a = some s')
    (hf : s'.submit = .flushing buf ctx processOnly) : (∃ buf ctx processOnly, s.submit = .flushing buf ctx processOnly) ∨
      a = .submitInputBuffer buf ∧ s.impl.nextContextReplacement = some ctx := by
  have hwaits : s'.submit.waits ≠ none := by simp [hf, Submit.waits]
  cases step_cases hs with
  | begins hidle hn hb => exact absurd (s.beginBuffer_frame hb).waits hwaits
  | flush hidle hn =>
    cases hf
    exact .inr ⟨rfl, hn⟩
  | flushGoesOn hp he => exact .inl ⟨_, _, _, hp⟩
  | flushEnds hp he hb => exact .inl ⟨_, _, _, hp⟩
  | frame hp =>
    unfold processFrame at hf
    dsimp only at hf
    split at hf
    · split at hf
      · cases hf
      · cases hf
    · cases hf
  | framesEnd hp => cases hf
  | work hp hb =>
    rename_i ok buffer w rest batch
    obtain hsub | ⟨batch', hsub, -⟩ := s.processWork_submit buffer rest batch ok w
    · rw [hsub] at hf
      cases hf
    · rw [hsub] at hf
      cases hf
  | pushBatch hp =>
    unfold GstNvInfer.pushBatch at hf
    split at hf
    · cases hf
    · cases hf
  | objectsEnd hp => cases hf
  | tensorBatch hp hne hle =>
    rename_i buffer frames status
    unfold GstNvInfer.tensorBatch at hf
    cases status with
    | success => exact .inl ⟨_, _, _, hf⟩
    | memError => exact .inl ⟨_, _, _, hf⟩
    | failed => cases hf
  | tensorsEnd hp =>
    rename_i buffer ok
    cases ok with
    | true => cases hf
    | false => cases hf
  | pushBuffer hp =>
    unfold GstNvInfer.pushBuffer at hf
    split at hf
    · cases hf
    · cases hf
  | event hidle =>
    unfold GstNvInfer.sinkEvent at hf
    split at hf
    · cases hf
    · rw [handleEvent_submit] at hf
      cases hf
  | eventGoesOn hp he => cases hf
  | eventEnds hp he =>
    rw [handleEvent_submit] at hf
    cases hf
  | inputPop ht hq => exact .inl ⟨_, _, _, hf⟩
  | inputQueued hq => exact .inl ⟨_, _, _, hf⟩
  | outputMarker hl hq hm => exact .inl ⟨_, _, _, hf⟩
  | outputPending hl hq hm hfr hp ha => exact .inl ⟨_, _, _, hf⟩
  | outputTakesPush hl hq hm hp => exact .inl ⟨_, _, _, hf⟩
  | outputTakes hl hq hm hfr hp => exact .inl ⟨_, _, _, hf⟩
  | outputPush hl => exact .inl ⟨_, _, _, hf⟩
  | outputContext hl => exact .inl ⟨_, _, _, hf⟩
  | outputAttach hl ha => exact .inl ⟨_, _, _, (s.outputAttach_frame ha).submit ▸ hf⟩
  | outputFails hl hst => exact .inl ⟨_, _, _, hf⟩
  | loadModel hl => exact .inl ⟨_, _, _, hf⟩
  | loadFailed hl => exact .inl ⟨_, _, _, hf⟩
  | triggerContextReplace hl => exact .inl ⟨_, _, _, hf⟩

/-- The streaming thread never gets past the flush. -/
theorem lost_step (h : s.Lost) (hs : s.step a = some s') : s'.Lost := by
  obtain ⟨ht, ⟨m, hm, hmarker⟩, buf, ctx, hp⟩ := h
  have hne : s.queues.inputQueue ≠ [] := List.ne_nil_of_mem hm
  have hwait (processOnly ended : Bool) (hpo : s.submit.waits = some processOnly)
      (he : s.queues.emptied processOnly = some ended) : False := by
    obtain rfl : false = processOnly := by simpa [hp, Submit.waits] using hpo
    exact hne ((Queues.emptied_eq_some he).1 rfl)
  have hkeeps (hcfg : s'.cfg = s.cfg) (hq : s'.queues.inputQueue = s.queues.inputQueue)
      (hsubmit : s'.submit = s.submit) : s'.Lost :=
    ⟨hcfg ▸ ht, ⟨m, hq ▸ hm, hmarker⟩, buf, ctx, hsubmit ▸ hp⟩
  cases step_cases hs with
  | begins hidle | flush hidle | event hidle =>
    rw [hp] at hidle
    cases hidle
  | flushGoesOn hf he | flushEnds hf he => exact (hwait _ _ (by rw [hf]; rfl) he).elim
  | eventGoesOn hf he | eventEnds hf he => exact (hwait _ _ (by rw [hf]; rfl) he).elim
  | frame hp' | framesEnd hp' | work hp' | pushBatch hp' | objectsEnd hp' | tensorBatch hp' | tensorsEnd hp'
  | pushBuffer hp' =>
    rw [hp] at hp'
    cases hp'
  | inputPop ht' => simp [ht] at ht'
  | inputQueued hq =>
    obtain ⟨b, ctx, -, ⟨-, rfl⟩ | ⟨-, rfl⟩⟩ := Queues.inputQueued_eq_some hq
    · exact hkeeps rfl rfl rfl
    · exact hkeeps rfl rfl rfl
  | outputMarker | outputPending | outputTakesPush | outputTakes | outputPush | outputContext | outputFails
  | loadModel | loadFailed | triggerContextReplace => exact hkeeps rfl rfl rfl
  | outputAttach hl ha =>
    have hat := s.outputAttach_frame ha
    exact hkeeps hat.cfg (by rw [hat.queues]; rfl) hat.submit

/-- The wait for a lost marker never ends, and nothing else is done meanwhile. -/
theorem Lost.forever (h : s.Lost) {t : GstNvInfer R} (hr : Reach step anyStep (· = s) t) : t.Lost ∧ ¬ t.WaitOver := by
  have hlost : t.Lost := hr.invariant (I := Lost) (fun _ hi => hi ▸ h) fun _ _ _ hI _ hs => lost_step hI hs
  refine ⟨hlost, ?_⟩
  obtain ⟨-, ⟨m, hm, -⟩, buf, ctx, hp⟩ := hlost
  rintro ⟨processOnly, hw, he⟩
  obtain rfl : false = processOnly := by simpa [hp, Submit.waits] using hw
  exact List.ne_nil_of_mem hm ((Queues.emptied_eq_some he).1 rfl)

theorem lost_of_not_ok (hs : s.step a = some s') (hok : ¬ s.MarkerStepOk a) : s'.Lost := by
  cases a with
  | submitInputBuffer buf =>
    simp only [MarkerStepOk, Classical.not_imp] at hok
    obtain ⟨ht, hn⟩ := hok
    cases step_cases hs with
    | begins hidle hnone => exact absurd hnone hn
    | flush hidle hnext =>
      exact ⟨ht, ⟨.marker, by simp [Queues.pushInput], rfl⟩, _, _, rfl⟩
  | _ => exact absurd trivial hok

/-- Where no model is replaced while tensors come from metadata, no marker gets
stuck and every wait is a barrier; where one is, the wait never ends. -/
theorem markers_run (h : Reach step MarkerStepOk Started s) :
    ¬ s.Blocked ∧
      (s.WaitOver → s.queues.line = [] ∧ s.queues.queued.Perm (s.queues.finished ++ s.queues.refused) ∧
        (s.queues.queued.Perm s.queues.finished ↔ s.queues.refused = [])) ∧
      ∀ a s', s.step a = some s' → ¬ s.MarkerStepOk a →
        ∀ t, Reach step anyStep (· = s') t → t.Lost ∧ ¬ t.WaitOver := by
  have hwired := wired_run h
  refine ⟨?_, hwired.barrier, fun a s' hs hok t hr => (lost_of_not_ok hs hok).forever hr⟩
  have hflush : s.cfg.inputTensorFromMeta = true → ∀ buf ctx processOnly, s.submit ≠ .flushing buf ctx processOnly := by
    refine h.invariant (I := fun s : GstNvInfer R => s.cfg.inputTensorFromMeta = true →
      ∀ buf ctx processOnly, s.submit ≠ .flushing buf ctx processOnly) ?_ fun t a t' hI hok hs => ?_
    · rintro _ ⟨cfg, interval, rfl⟩ - buf ctx processOnly hf
      cases hf
    · intro ht buf ctx processOnly hf
      rw [cfg_step hs] at ht
      obtain ⟨buf', ctx', processOnly', hf'⟩ | ⟨rfl, hnext⟩ := flushing_of_step hs hf
      · exact hI ht buf' ctx' processOnly' hf'
      · simp [hok ht] at hnext
  exact not_blocked fun ht => hwired.inputQueue_eq_nil ht (hflush ht)

/-- A detector on full frames. -/
def detectorSettings : Settings where
  maxBatchSize := 1
  networkType := .detector
  inputTensorFromMeta := false
  processFullFrame := true
  classifierAsyncMode := false
  operateOnGieId := -1
  minInputObjectWidth := 0
  minInputObjectHeight := 0
  maxInputObjectWidth := 0
  maxInputObjectHeight := 0
  operateOnClassIds := []
  secondaryReinferInterval := 0

/-- A frame is queued and an event comes behind it, until the wait is over. -/
def eventRun : List (Action ℚ) :=
  [.submitInputBuffer [⟨0, 1, []⟩], .processFrame true, .processFrame true, .pushBuffer, .sinkEvent .eos, .inputPop,
    .inputQueued .success, .inputPop, .inputPop, .outputPop, .outputContext, .outputDequeued .success [], .outputPop,
    .outputPush, .outputPop]

theorem markers_run_event :
    let s := (exec step MarkerStepOk (start ℚ detectorSettings 0) eventRun).get (by decide +kernel)
    s.WaitOver ∧ ¬ s.Blocked ∧
      (s.WaitOver → s.queues.line = [] ∧ s.queues.queued.Perm (s.queues.finished ++ s.queues.refused) ∧
        (s.queues.queued.Perm s.queues.finished ↔ s.queues.refused = [])) ∧
      ∀ a s', s.step a = some s' → ¬ s.MarkerStepOk a →
        ∀ t, Reach step anyStep (· = s') t → t.Lost ∧ ¬ t.WaitOver :=
  ⟨⟨false, by decide +kernel, by decide +kernel⟩, markers_run (Reach.get_exec ⟨detectorSettings, 0, rfl⟩ _)⟩

/-- A model is replaced while tensors come from metadata: the marker is on the
input queue, that no thread pops. -/
theorem marker_lost : ∃ s : GstNvInfer ℚ, Reach step anyStep Started s ∧ s.Blocked ∧
    s.cfg.inputTensorFromMeta = true ∧ ∃ b ∈ s.queues.inputQueue, b.eventMarker = true := by
  refine ⟨_, Reach.get_exec (s := start ℚ { detectorSettings with inputTensorFromMeta := true } 0)
    (l := [.loadModel, .triggerContextReplace, .submitInputBuffer []]) ⟨_, 0, rfl⟩ (by decide +kernel),
    ⟨⟨false, by decide +kernel, by decide +kernel⟩, fun ht => ?_, by decide +kernel⟩, by decide +kernel,
    .marker, by decide +kernel, rfl⟩
  exact absurd ht (by decide +kernel)

end GstNvInfer
end NvInfer
end DeepStream
