/-
# Model updates

A new model is put in place by the streaming thread, before it takes the next
buffer and after a flush. Then no batch is on its way, so whatever is on its way
later was taken by the context that is in place, in whatever order the threads
go on, and is dequeued from it and attached under its init params. The exception
is the threshold of segmentation masks: the output loop reads it through a
pointer to the init params that were in place when the loop started.
-/
import DeepStream.NvInfer.Markers

namespace DeepStream
namespace NvInfer

open Infer (CFloat)

/-! ### The queues -/

namespace Queues

variable {q q' : Queues} {ctx : ℕ}

/-- The batches on their way were taken by the context. -/
structure From (q : Queues) (ctx : ℕ) : Prop where
  input : ∀ b c, q.inputLoop = .queueing b c → c = ctx
  process : ∀ e ∈ q.processQueue, e.1.passed = false → e.2 = some ctx
  output : ∀ b queuedTo c, q.outputLoop = .dequeuing b queuedTo c → queuedTo = some ctx ∧ ∀ x ∈ c, x = ctx

theorem From.of_line_eq_nil (h : q.line = []) : q.From ctx := by
  simp only [line, List.append_eq_nil_iff, List.map_eq_nil_iff] at h
  obtain ⟨⟨⟨hout, hproc⟩, hin⟩, -⟩ := h
  refine ⟨fun b c hl => ?_, by simp [hproc], fun b queuedTo c hl => ?_⟩
  · simp [hl, InputLoop.held] at hin
  · simp [hl, OutputLoop.held] at hout

theorem From.pushInput (h : q.From ctx) (b : GstNvInferBatch) : (q.pushInput b).From ctx :=
  ⟨h.input, h.process, h.output⟩

/-- One more entry of the process queue: its context is the one that took it. -/
theorem From.append (h : q.From ctx) {b : GstNvInferBatch} {c : Option ℕ} {loop : InputLoop}
    {input queued : List GstNvInferBatch} (hc : b.passed = false → c = some ctx)
    (hl : ∀ b c, loop = .queueing b c → c = ctx) :
    { q with
      inputQueue := input
      inputLoop := loop
      processQueue := q.processQueue ++ [(b, c)]
      queued := queued }.From ctx := by
  refine ⟨hl, fun e he hp => ?_, h.output⟩
  obtain he | he := List.mem_append.mp he
  · exact h.process e he hp
  · obtain rfl := List.mem_singleton.mp he
    exact hc hp

theorem From.inputPop (h : q.From ctx) (hq : q.inputPop ctx = some q') : q'.From ctx := by
  obtain ⟨b, rest, hl, -, ⟨hp, rfl⟩ | ⟨hp, rfl⟩⟩ := inputPop_eq_some hq
  · exact h.append (by simp [hp]) h.input
  · refine ⟨fun b' c hc => ?_, h.process, h.output⟩
    cases hc
    rfl

theorem From.inputQueued (h : q.From ctx) {status : NvDsInferStatus} (hq : q.inputQueued status = some q') :
    q'.From ctx := by
  obtain ⟨b, c, hl, ⟨-, rfl⟩ | ⟨-, rfl⟩⟩ := inputQueued_eq_some hq
  · obtain rfl := h.input b c hl
    exact h.append (fun _ => rfl) (by simp)
  · exact ⟨by simp, h.process, h.output⟩

/-- The output thread pops an entry. -/
theorem From.pop (h : q.From ctx) {e : GstNvInferBatch × Option ℕ} {entries : List (GstNvInferBatch × Option ℕ)}
    {loop : OutputLoop} {finished : List GstNvInferBatch} (hq : q.processQueue = e :: entries)
    (hl : ∀ b queuedTo c, loop = .dequeuing b queuedTo c → queuedTo = some ctx ∧ ∀ x ∈ c, x = ctx) :
    { q with processQueue := entries, outputLoop := loop, finished := finished }.From ctx :=
  ⟨h.input, fun e' he => h.process e' (hq ▸ List.mem_cons_of_mem e he), hl⟩

theorem From.finish (h : q.From ctx) (b : GstNvInferBatch) : (q.finish b).From ctx :=
  ⟨h.input, h.process, by simp [Queues.finish]⟩

end Queues

/-! ### The element -/

/-- Queued to, dequeued from and released to one context, and attached under the
init params of that context. -/
def ContextUse.Atomic (u : ContextUse) : Prop :=
  u.queuedTo = some u.dequeuedFrom ∧ u.typeParams = u.dequeuedFrom ∧ ∀ p ∈ u.thresholdParams, p = u.dequeuedFrom

namespace GstNvInfer

variable {R : Type*} {s s' : GstNvInfer R}

/-- What is on its way belongs to the context in place, and the init params do. -/
structure Current (s : GstNvInfer R) : Prop where
  params : s.impl.initParams = s.impl.inferCtx
  queues : s.queues.From s.impl.inferCtx

theorem Current.keeps (h : s.Current) (hi : s'.impl = s.impl) (hq : s'.queues.From s.impl.inferCtx) :
    s'.Current where
  params := by rw [hi, h.params]
  queues := by rwa [hi]

/-- The streaming thread queues a marker or a push batch. -/
theorem Current.enqueue (h : s.Current) {b : GstNvInferBatch} (hb : b.passed = true) :
    (s.enqueue b).From s.impl.inferCtx := by
  unfold GstNvInfer.enqueue
  split
  · exact h.queues.append (by simp [hb]) h.queues.input
  · exact h.queues.pushInput b

theorem current_start (cfg : Settings) (interval : ℕ) : (start R cfg interval).Current :=
  ⟨rfl, .of_line_eq_nil rfl⟩

variable [CFloat R] {a : Action R}

theorem current_step (hw : s.Wired) (h : s.Current) (hs : s.step a = some s') : s'.Current := by
  cases step_cases hs with
  | begins hidle hn hb =>
    have hbegins := s.beginBuffer_frame hb
    exact h.keeps hbegins.impl (hbegins.queues ▸ h.queues)
  | flush hidle hn => exact ⟨h.params, h.queues.pushInput _⟩
  | flushEnds hf he hb =>
    -- the flush leaves nothing on its way, so that the contexts may change
    have hbegins := GstNvInfer.beginBuffer_frame _ hb
    have hline := hw.line_eq_nil (by rw [hf]; rfl) he
    refine ⟨by rw [hbegins.impl], ?_⟩
    rw [hbegins.queues]
    exact .of_line_eq_nil hline
  | frame hp =>
    unfold processFrame
    dsimp only
    split
    · split
      · exact h.keeps rfl (h.queues.pushInput _)
      · exact h.keeps rfl h.queues
    · exact h.keeps rfl h.queues
  | work hp hb =>
    rename_i ok buffer w rest batch
    have hsame := s.processWork_untouched buffer rest batch ok w
    exact h.keeps hsame.impl (hsame.queues ▸ h.queues)
  | pushBatch hp =>
    unfold GstNvInfer.pushBatch
    split
    · exact h.keeps rfl (h.queues.pushInput _)
    · exact h.keeps rfl h.queues
  | objectsEnd hp =>
    have hsame := s.cleanupHistoryMap_untouched
    exact h.keeps hsame.impl (hsame.queues ▸ h.queues)
  | tensorBatch hp hne hle =>
    rename_i buffer frames status
    unfold GstNvInfer.tensorBatch
    cases status with
    | success => exact h.keeps rfl (h.queues.append (fun _ => rfl) h.queues.input)
    | memError => exact h
    | failed => exact h.keeps rfl h.queues
  | pushBuffer hp =>
    unfold GstNvInfer.pushBuffer
    split
    · exact h.keeps rfl h.queues
    · exact h.keeps rfl (h.enqueue rfl)
  | event hidle =>
    rename_i e
    unfold GstNvInfer.sinkEvent
    split
    · exact h.keeps rfl (h.enqueue rfl)
    · have hsame := s.handleEvent_untouched e
      exact h.keeps hsame.impl (hsame.queues ▸ h.queues)
  | eventEnds hf he =>
    rename_i e processOnly
    have hsame := s.handleEvent_untouched e
    exact h.keeps hsame.impl (hsame.queues ▸ h.queues)
  | inputPop ht hq => exact h.keeps rfl (h.queues.inputPop hq)
  | inputQueued hq => exact h.keeps rfl (h.queues.inputQueued hq)
  | outputMarker hl hq hm => exact h.keeps rfl (h.queues.pop hq (by simp))
  | outputPending hl hq hm hf hp ha => exact h.keeps rfl (h.queues.pop hq (by simp))
  | outputTakesPush hl hq hm hp => exact h.keeps rfl (h.queues.pop hq (by simp))
  | outputTakes hl hq hm hf hp =>
    rename_i b c entries
    refine h.keeps rfl (h.queues.pop hq fun b' queuedTo c' hc => ?_)
    cases hc
    exact ⟨h.queues.process (b, c) (by simp [hq]) (by simp [GstNvInferBatch.passed, hm, hf, hp]), by simp⟩
  | outputPush hl => exact h.keeps rfl (h.queues.finish _)
  | outputContext hl =>
    refine h.keeps rfl ⟨h.queues.input, h.queues.process, fun b' queuedTo c hc => ?_⟩
    cases hc
    exact ⟨(h.queues.output _ _ _ hl).1, by simp⟩
  | outputAttach hl ha =>
    have hat := s.outputAttach_frame ha
    exact h.keeps hat.impl (hat.queues ▸ h.queues.finish _)
  | outputFails hl hst => exact h.keeps rfl (h.queues.finish _)
  | flushGoesOn | framesEnd | tensorsEnd | eventGoesOn => exact h.keeps rfl h.queues
  | loadModel | loadFailed | triggerContextReplace => exact ⟨h.params, h.queues⟩

/-! ### What is attached -/

/-- When the output of a batch is attached the network is neither a detector nor
an instance segmentation, or the init params in place are still those from when
the output loop started. -/
def UpdateStepOk (s : GstNvInfer R) (a : Action R) : Prop :=
  match a with
  | .outputDequeued .success _ =>
    (s.cfg.networkType ≠ .detector ∧ s.cfg.networkType ≠ .instanceSegmentation) ∨
      s.impl.outputLoopParams = s.impl.initParams
  | _ => True

instance instDecidableUpdateStepOk (s : GstNvInfer R) (a : Action R) : Decidable (s.UpdateStepOk a) :=
  match a with
  | .outputDequeued .success _ =>
    inferInstanceAs (Decidable ((s.cfg.networkType ≠ .detector ∧ s.cfg.networkType ≠ .instanceSegmentation) ∨
      s.impl.outputLoopParams = s.impl.initParams))
  | .outputDequeued .memError _ | .outputDequeued .failed _
  | .submitInputBuffer _ | .flushed | .processFrame _ | .processWork _ | .pushBatch _ | .endObjects
  | .tensorBatch _ _ | .endTensors _ | .pushBuffer | .sinkEvent _ | .eventFlushed | .inputPop | .inputQueued _
  | .outputPop | .outputPush | .outputContext | .loadModel | .loadFailed | .triggerContextReplace =>
    inferInstanceAs (Decidable True)

/-- Only an output that is attached uses a context. -/
theorem uses_step (hs : s.step a = some s') :
    s'.log.uses = s.log.uses ∧ s.UpdateStepOk a ∨
      ∃ b queuedTo ctx outputs, a = .outputDequeued .success outputs ∧
        s.queues.outputLoop = .dequeuing b queuedTo (some ctx) ∧
          s'.log.uses = s.log.uses ++ [s.contextUse queuedTo ctx] := by
  cases step_cases hs with
  | begins hidle hn hb =>
    obtain ⟨_, hlog⟩ := (s.beginBuffer_frame hb).log
    exact .inl ⟨by rw [hlog], trivial⟩
  | flushEnds hf he hb =>
    obtain ⟨_, hlog⟩ := (GstNvInfer.beginBuffer_frame _ hb).log
    exact .inl ⟨by rw [hlog], trivial⟩
  | frame hp =>
    refine .inl ⟨?_, trivial⟩
    unfold processFrame
    dsimp only
    split
    · split <;> rfl
    · rfl
  | work hp hb =>
    rename_i ok buffer w rest batch
    obtain ⟨_, hlog⟩ := (s.processWork_untouched buffer rest batch ok w).log
    exact .inl ⟨by rw [hlog], trivial⟩
  | pushBatch hp =>
    refine .inl ⟨?_, trivial⟩
    unfold GstNvInfer.pushBatch
    split <;> rfl
  | objectsEnd hp =>
    obtain ⟨_, hlog⟩ := s.cleanupHistoryMap_untouched.log
    exact .inl ⟨by show s.cleanupHistoryMap.log.uses = _; rw [hlog], trivial⟩
  | tensorBatch hp hne hle =>
    rename_i buffer frames status
    refine .inl ⟨?_, trivial⟩
    cases status <;> rfl
  | pushBuffer hp =>
    refine .inl ⟨?_, trivial⟩
    unfold GstNvInfer.pushBuffer
    split <;> rfl
  | event hidle =>
    rename_i e
    refine .inl ⟨?_, trivial⟩
    unfold GstNvInfer.sinkEvent
    split
    · rfl
    · obtain ⟨_, hlog⟩ := (s.handleEvent_untouched e).log
      rw [hlog]
  | eventEnds hf he =>
    rename_i e processOnly
    obtain ⟨_, hlog⟩ := (s.handleEvent_untouched e).log
    exact .inl ⟨by rw [hlog], trivial⟩
  | outputPending hl hq hm hf hp ha =>
    obtain ⟨-, rfl⟩ := s.attachPending_eq_some ha
    exact .inl ⟨rfl, trivial⟩
  | outputAttach hl ha => exact .inr ⟨_, _, _, _, rfl, hl, by rw [(s.outputAttach_frame ha).log]⟩
  | outputFails hl hst =>
    rename_i b c ctx status outputs
    cases status with
    | success => exact absurd rfl hst
    | memError => exact .inl ⟨rfl, trivial⟩
    | failed => exact .inl ⟨rfl, trivial⟩
  | _ => exact .inl ⟨rfl, trivial⟩

omit [CFloat R] in
/-- The output of the context in place is attached under its own init params, up
to the threshold. -/
theorem Current.atomic_iff (h : s.Current) {b : GstNvInferBatch} {queuedTo : Option ℕ} {ctx : ℕ}
    {outputs : List GstNvInferObjectInfo} (hl : s.queues.outputLoop = .dequeuing b queuedTo (some ctx)) :
    (s.contextUse queuedTo ctx).Atomic ↔ s.UpdateStepOk (.outputDequeued .success outputs) := by
  obtain ⟨rfl, hctx⟩ := h.queues.output _ _ _ hl
  obtain rfl := hctx ctx rfl
  simp only [ContextUse.Atomic, contextUse, UpdateStepOk, h.params, true_and]
  cases s.cfg.networkType <;> simp

/-- Every batch is atomic with respect to model updates in the runs that meet the
condition, and a step leaves it so if and only if it meets the condition. -/
theorem update_run (h : Reach step UpdateStepOk Started s) :
    (∀ u ∈ s.log.uses, u.Atomic) ∧
      ∀ a s', s.step a = some s' → ((∀ u ∈ s'.log.uses, u.Atomic) ↔ s.UpdateStepOk a) := by
  have hstep {s s' : GstNvInfer R} {a : Action R} (hc : s.Current) (hu : ∀ u ∈ s.log.uses, u.Atomic)
      (hs : s.step a = some s') : (∀ u ∈ s'.log.uses, u.Atomic) ↔ s.UpdateStepOk a := by
    obtain ⟨huses, hok⟩ | ⟨b, queuedTo, ctx, outputs, rfl, hl, huses⟩ := uses_step hs
    · exact iff_of_true (huses ▸ hu) hok
    · rw [← hc.atomic_iff hl, huses]
      constructor
      · intro hall
        exact hall _ (by simp)
      · intro hlast u hmem
        obtain hmem | hmem := List.mem_append.mp hmem
        · exact hu u hmem
        · obtain rfl := List.mem_singleton.mp hmem
          exact hlast
  have hinv : (s.Wired ∧ s.Current) ∧ ∀ u ∈ s.log.uses, u.Atomic := by
    refine h.invariant (I := fun s : GstNvInfer R => (s.Wired ∧ s.Current) ∧ ∀ u ∈ s.log.uses, u.Atomic) ?_
      fun _ _ _ hI hok hs => ⟨⟨wired_step hI.1.1 hs, current_step hI.1.1 hI.1.2 hs⟩, (hstep hI.1.2 hI.2 hs).mpr hok⟩
    rintro _ ⟨cfg, interval, rfl⟩
    exact ⟨⟨wired_start cfg interval, current_start cfg interval⟩, by simp [start]⟩
  exact ⟨hinv.2, fun a s' hs => hstep hinv.1.2 hinv.2 hs⟩

/-- A frame is inferred before a new model is put in place, and one after it. -/
def updateRun : List (Action ℚ) :=
  [.submitInputBuffer [⟨0, 1, []⟩], .processFrame true, .processFrame true, .pushBuffer, .inputPop,
    .inputQueued .success, .outputPop, .loadModel, .triggerContextReplace, .submitInputBuffer [⟨0, 2, []⟩],
    .outputContext, .outputDequeued .success [], .inputPop, .inputPop, .outputPop, .outputPush, .outputPop, .flushed,
    .processFrame true, .processFrame true, .pushBuffer, .inputPop, .inputQueued .success, .outputPop, .outputContext,
    .outputDequeued .success []]

/-- A classifier on full frames. -/
def classifierSettings : Settings :=
  { detectorSettings with networkType := .classifier, async_classifier := by decide }

theorem update_run_classifier :
    let s := (exec step UpdateStepOk (start ℚ classifierSettings 0) updateRun).get (by decide +kernel)
    s.log.uses.length = 2 ∧ (∀ u ∈ s.log.uses, u.Atomic) ∧
      ∀ a s', s.step a = some s' → ((∀ u ∈ s'.log.uses, u.Atomic) ↔ s.UpdateStepOk a) :=
  ⟨by decide +kernel, update_run (Reach.get_exec ⟨_, 0, rfl⟩ _)⟩

/-- With a detector the output of the new model is attached under the threshold
of the model it has replaced. -/
theorem threshold_replaced : ∃ s : GstNvInfer ℚ, Reach step anyStep Started s ∧
    ∃ u ∈ s.log.uses, u = ⟨some 1, 1, 1, some 0⟩ ∧ ¬ u.Atomic := by
  refine ⟨_, Reach.get_exec (s := start ℚ detectorSettings 0) (l := updateRun) ⟨_, 0, rfl⟩ (by decide +kernel),
    ⟨some 1, 1, 1, some 0⟩, by decide +kernel, rfl, ?_⟩
  rintro ⟨-, -, hthreshold⟩
  exact absurd (hthreshold 0 rfl) (by decide)

end GstNvInfer
end NvInfer
end DeepStream
