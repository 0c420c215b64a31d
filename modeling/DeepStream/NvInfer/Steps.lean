/-
# What the steps of gst-nvinfer do

`StepCases` lists once what each section can do, with its guards; the invariants
of the element are proved along it. Beside each operation of the streaming thread
stands which parts of the state it leaves alone, beside each operation on the
queues what it does to the line of the batches.
-/
import DeepStream.NvInfer.Threads

namespace DeepStream
namespace NvInfer

open Infer (CFloat)

/-! ### The line -/

namespace Queues

variable {q q' : Queues}

@[simp] theorem line_pushInput (q : Queues) (b : GstNvInferBatch) : (q.pushInput b).line = q.line ++ [b] := by
  simp [line, pushInput]

/-- Without an input-queue thread the process queue is the end of the line. -/
theorem line_pushProcess (b : GstNvInferBatch) (ctx : Option ℕ) (hl : q.inputLoop = .waiting)
    (hq : q.inputQueue = []) : (q.pushProcess b ctx).line = q.line ++ [b] := by
  simp [line, pushProcess, hl, hq, InputLoop.held]

theorem inputPop_eq_some {ctx : ℕ} (h : q.inputPop ctx = some q') : ∃ b rest, q.inputLoop = .waiting ∧
    q.inputQueue = b :: rest ∧
      (b.passed = true ∧ q' = { q with inputQueue := rest, processQueue := q.processQueue ++ [(b, none)] } ∨
        b.passed = false ∧ q' = { q with inputQueue := rest, inputLoop := .queueing b ctx }) := by
  unfold inputPop at h
  split at h
  · rename_i b rest hl hq
    refine ⟨b, rest, hl, hq, ?_⟩
    split at h
    · exact Or.inl ⟨by assumption, (Option.some.inj h).symm⟩
    · rename_i hp
      exact Or.inr ⟨by simpa using hp, (Option.some.inj h).symm⟩
  · simp at h

theorem line_inputPop {ctx : ℕ} (h : q.inputPop ctx = some q') : q'.line = q.line := by
  obtain ⟨b, rest, hl, hq, ⟨-, rfl⟩ | ⟨-, rfl⟩⟩ := inputPop_eq_some h
  · simp [line, hl, hq, InputLoop.held]
  · simp [line, hl, hq, InputLoop.held]

theorem inputQueued_eq_some {status : NvDsInferStatus} (h : q.inputQueued status = some q') :
    ∃ b ctx, q.inputLoop = .queueing b ctx ∧
      (status = .success ∧
          q' = { q with inputLoop := .waiting, processQueue := q.processQueue ++ [(b, some ctx)] } ∨
        status ≠ .success ∧ q' = { q with inputLoop := .waiting, refused := q.refused ++ [b] }) := by
  unfold inputQueued at h
  split at h
  · simp at h
  · rename_i b ctx hl
    refine ⟨b, ctx, hl, ?_⟩
    split at h
    · exact Or.inl ⟨by assumption, (Option.some.inj h).symm⟩
    · exact Or.inr ⟨by assumption, (Option.some.inj h).symm⟩

/-- What the context took stays in the line, what it refused leaves it. -/
theorem line_inputQueued {status : NvDsInferStatus} (h : q.inputQueued status = some q') :
    status = .success ∧ q'.line = q.line ∨
      status ≠ .success ∧ ∃ b before, q.inputLoop.held = [b] ∧ q.line = before ++ b :: q.inputQueue ∧
        q'.line = before ++ q.inputQueue := by
  obtain ⟨b, ctx, hl, ⟨hst, rfl⟩ | ⟨hst, rfl⟩⟩ := inputQueued_eq_some h
  · refine .inl ⟨hst, ?_⟩
    simp [line, hl, InputLoop.held]
  · refine .inr ⟨hst, b, q.outputLoop.held ++ q.processQueue.map (·.1), by rw [hl]; rfl, ?_, ?_⟩
    · simp [line, hl, InputLoop.held]
    · simp [line, InputLoop.held]

/-- The output thread takes the first entry of the process queue. -/
theorem line_take {b : GstNvInferBatch} {c : Option ℕ} {entries : List (GstNvInferBatch × Option ℕ)}
    {loop : OutputLoop} (hl : q.outputLoop = .waiting) (hq : q.processQueue = (b, c) :: entries)
    (hloop : loop.held = [b]) : { q with processQueue := entries, outputLoop := loop }.line = q.line := by
  simp only [line, hl, hq, hloop]
  simp [OutputLoop.held]

theorem line_pop {b : GstNvInferBatch} {c : Option ℕ} {entries : List (GstNvInferBatch × Option ℕ)}
    (hl : q.outputLoop = .waiting) (hq : q.processQueue = (b, c) :: entries) :
    q.line = b :: ({ q with processQueue := entries }.finish b).line := by
  simp [line, hl, hq, OutputLoop.held, finish]

theorem line_held {loop : OutputLoop} (hloop : loop.held = q.outputLoop.held) :
    { q with outputLoop := loop }.line = q.line := by
  simp only [line, hloop]

theorem line_finish {b : GstNvInferBatch} (hb : q.outputLoop.held = [b]) : q.line = b :: (q.finish b).line := by
  simp only [line, hb]
  simp [OutputLoop.held, finish]

theorem emptied_eq_some {processOnly ended : Bool} (h : q.emptied processOnly = some ended) :
    (processOnly = false → q.inputQueue = []) ∧ (ended = true → q.processQueue = []) ∧
      (ended = false → processOnly = false) := by
  unfold emptied at h
  split at h
  · simp at h
  · rename_i hin
    simp only [not_and, not_not] at hin
    split at h
    · obtain rfl := Option.some.inj h
      exact ⟨hin, fun _ => by assumption, by simp⟩
    · split at h
      · simp at h
      · rename_i hp
        obtain rfl := Option.some.inj h
        exact ⟨hin, by simp, fun _ => by simpa using hp⟩

end Queues

/-! ### The phases of the streaming thread -/

/-- Neither a marker nor a push batch. -/
def GstNvInferBatch.Filling (b : GstNvInferBatch) : Prop := b.eventMarker = false ∧ b.pushBuffer = false

theorem GstNvInferBatch.filling_getD {batch : Option GstNvInferBatch} {b : GstNvInferBatch}
    (h : ∀ b ∈ batch, b.Filling) (hb : b.Filling) : (batch.getD b).Filling := by
  cases batch with
  | none => exact hb
  | some b' => exact h b' rfl

section Phases

variable {R : Type*}

namespace Submit

/-- Waiting for a marker: for the process queue only, or for both queues. -/
def waits : Submit R → Option Bool
  | .flushing _ _ processOnly => some processOnly
  | .inEvent _ processOnly => some processOnly
  | _ => none

/-- The phase belongs to the way in which the element takes its input, and the
batch that is being filled is one with input. -/
def Fits (cfg : Settings) : Submit R → Prop
  | .fullFrame _ _ batch => (cfg.inputTensorFromMeta = false ∧ cfg.processFullFrame = true) ∧ ∀ b ∈ batch, b.Filling
  | .objects _ _ batch => (cfg.inputTensorFromMeta = false ∧ cfg.processFullFrame = false) ∧ ∀ b ∈ batch, b.Filling
  | .tensors _ => cfg.inputTensorFromMeta = true
  | .inEvent _ _ => cfg.classifierAsyncMode = false
  | _ => True

end Submit

/-! ### What the operations leave alone -/

namespace GstNvInfer

variable (s : GstNvInfer R) {s' : GstNvInfer R}

/-- A new buffer leaves queues, contexts and histories alone. -/
structure Begins (s s' : GstNvInfer R) (buf : GstBuffer R) : Prop where
  cfg : s'.cfg = s.cfg
  queues : s'.queues = s.queues
  impl : s'.impl = s.impl
  tracked : s'.tracked = s.tracked
  waits : s'.submit.waits = none
  batch : s'.submit.batch = []
  fits : s'.submit.Fits s.cfg
  log : ∃ decisions, s'.log = { s.log with buffers := s.log.buffers ++ [buf], decisions := decisions }

theorem beginBuffer_frame {buf : GstBuffer R} (h : s.beginBuffer buf = some s') : s.Begins s' buf := by
  unfold beginBuffer at h
  simp only at h
  split at h
  · obtain rfl := Option.some.inj h
    exact ⟨rfl, rfl, rfl, rfl, rfl, rfl, by assumption, _, rfl⟩
  · rename_i hin
    simp only [Bool.not_eq_true] at hin
    split at h
    · rename_i hfull
      split at h
      · simp at h
      · split at h
        · obtain rfl := Option.some.inj h
          exact ⟨rfl, rfl, rfl, rfl, rfl, rfl, trivial, _, rfl⟩
        · obtain rfl := Option.some.inj h
          exact ⟨rfl, rfl, rfl, rfl, rfl, rfl, ⟨⟨hin, hfull⟩, by simp⟩, _, rfl⟩
    · rename_i hfull
      simp only [Bool.not_eq_true] at hfull
      obtain rfl := Option.some.inj h
      exact ⟨rfl, rfl, rfl, rfl, rfl, rfl, ⟨⟨hin, hfull⟩, by simp⟩, _, rfl⟩

theorem attachPending_eq_some {pending : List (ℕ × Item)} {log : Log R} (h : s.attachPending pending = some log) :
    (∀ p ∈ pending, s.tracked.alive p.1) ∧
      log = { s.log with attached := s.log.attached ++ pending.map fun p => (p.2, s.cachedInfo p.1) } := by
  unfold attachPending at h
  split at h
  · exact ⟨by assumption, (Option.some.inj h).symm⟩
  · simp at h

/-- What is attached: the output of every frame, then what was deferred. -/
structure Attaches (s s' : GstNvInfer R) (b : GstNvInferBatch) (queuedTo : Option ℕ) (ctx : ℕ)
    (outputs : List GstNvInferObjectInfo) : Prop where
  cfg : s'.cfg = s.cfg
  queues : s'.queues = s.queues.finish b
  impl : s'.impl = s.impl
  submit : s'.submit = s.submit
  tracked : s'.tracked = s.outputFrames b outputs
  log : s'.log = { s.log with
    outputs := s.log.outputs ++ b.frames.map GstNvInferFrame.item
    attached := s.log.attached ++ b.objsPendingMetaAttach.map fun p => (p.2, s'.cachedInfo p.1)
    uses := s.log.uses ++ [s.contextUse queuedTo ctx] }

theorem outputAttach_frame {b : GstNvInferBatch} {queuedTo : Option ℕ} {ctx : ℕ}
    {outputs : List GstNvInferObjectInfo} (h : s.outputAttach b queuedTo ctx outputs = some s') :
    s.Attaches s' b queuedTo ctx outputs := by
  obtain ⟨log, hlog, rfl⟩ := Option.map_eq_some_iff.mp h
  obtain ⟨-, rfl⟩ := attachPending_eq_some _ hlog
  exact ⟨rfl, rfl, rfl, rfl, rfl, rfl⟩

/-- Nothing but the decisions and the histories changes, and where the streaming
thread is. -/
structure Untouched (s s' : GstNvInfer R) : Prop where
  cfg : s'.cfg = s.cfg
  queues : s'.queues = s.queues
  impl : s'.impl = s.impl
  log : ∃ decisions, s'.log = { s.log with decisions := decisions }

theorem deferObject_untouched (buffer : ℕ) (rest : List (Work R)) (batch : Option GstNvInferBatch) (ok : Bool)
    (item : Item) (frameNum h : ℕ) : s.Untouched (s.deferObject ok buffer item frameNum h rest batch) := by
  unfold deferObject
  split
  · exact ⟨rfl, rfl, rfl, _, rfl⟩
  · exact ⟨rfl, rfl, rfl, _, rfl⟩

theorem cleanupHistoryMap_untouched : s.Untouched s.cleanupHistoryMap := by
  unfold cleanupHistoryMap
  split
  · exact ⟨rfl, rfl, rfl, _, rfl⟩
  · exact ⟨rfl, rfl, rfl, _, rfl⟩

theorem handleEvent_untouched (e : SinkEvent) : s.Untouched (s.handleEvent e) := by
  cases e <;> exact ⟨rfl, rfl, rfl, _, rfl⟩

@[simp] theorem handleEvent_submit (e : SinkEvent) : (s.handleEvent e).submit = .idle := by
  cases e <;> rfl

@[simp] theorem handleEvent_log (e : SinkEvent) : (s.handleEvent e).log = s.log := by
  cases e <;> rfl

variable [CFloat R] (buffer : ℕ) (rest : List (Work R)) (batch : Option GstNvInferBatch)

/-- The history that the map of the object's source has of the object. -/
def historyOf (f : NvDsFrameMeta R) (obj : NvDsObjectMeta R) : Option ℕ :=
  (s.tracked.source? f.padIndex).bind fun si => ObjectHistories.search si obj.objectId

/-- The source is known, the object is tracked if it has to be, and it should be
inferred. -/
def Qualifies (f : NvDsFrameMeta R) (obj : NvDsObjectMeta R) : Prop :=
  (s.tracked.source? f.padIndex).isSome = true ∧
    ¬ (s.cfg.classifierAsyncMode = true ∧ obj.objectId = untrackedObjectId) ∧
      shouldInferObject s.cfg obj f.frameNum ((s.historyOf f obj).bind (s.tracked.histories[·]?)) = true

instance instDecidableQualifies (f : NvDsFrameMeta R) (obj : NvDsObjectMeta R) : Decidable (s.Qualifies f obj) :=
  inferInstanceAs (Decidable (_ ∧ _))

/-- Objects that are not inferred are left to the output thread. -/
def Defers (cfg : Settings) : Prop := cfg.networkType = .classifier ∧ cfg.classifierAsyncMode = false

instance instDecidableDefers (cfg : Settings) : Decidable (Defers cfg) := inferInstanceAs (Decidable (_ ∧ _))

/-- What one round of the loops of `gst_nvinfer_process_objects` can do: note the
frame, skip the object (in asynchronous mode its history may be accessed), leave
it to the output thread, or infer it. -/
inductive WorkCases (ok : Bool) : Work R → GstNvInfer R → Prop
  | seen (f : NvDsFrameMeta R) : WorkCases ok (.frame f) { s with
      tracked := s.tracked.updateSource f.padIndex fun si => { si with lastSeenFrameNum := f.frameNum }
      submit := .objects buffer rest batch }
  | skip (item : Item) (f : NvDsFrameMeta R) (obj : NvDsObjectMeta R) (hq : ¬ s.Qualifies f obj)
      (hd : s.historyOf f obj ≠ none → ¬ Defers s.cfg) :
      WorkCases ok (.object item f obj) (s.skipObject buffer item rest batch)
  | access (item : Item) (f : NvDsFrameMeta R) (obj : NvDsObjectMeta R) (h : ℕ) (hq : ¬ s.Qualifies f obj)
      (hd : ¬ Defers s.cfg) :
      WorkCases ok (.object item f obj)
        ({ s with tracked := s.tracked.modify h fun hist =>
          { hist with lastAccessedFrameNum := f.frameNum } }.skipObject buffer item rest batch)
  | defer (item : Item) (f : NvDsFrameMeta R) (obj : NvDsObjectMeta R) {h : ℕ} (hq : ¬ s.Qualifies f obj)
      (hh : s.historyOf f obj = some h) (hd : Defers s.cfg) :
      WorkCases ok (.object item f obj) (s.deferObject ok buffer item f.frameNum h rest batch)
  | infer (item : Item) (f : NvDsFrameMeta R) (obj : NvDsObjectMeta R) (hq : s.Qualifies f obj) :
      WorkCases ok (.object item f obj) (s.inferObject ok buffer item f obj (s.historyOf f obj) rest batch)

theorem processWork_cases (ok : Bool) (w : Work R) :
    s.WorkCases buffer rest batch ok w (s.processWork ok buffer w rest batch) := by
  cases w with
  | frame f => exact .seen f
  | object item f obj =>
    simp only [processWork, processObject]
    split
    · rename_i hsi
      exact .skip item f obj (by simp [Qualifies, hsi]) (by simp [historyOf, hsi])
    · rename_i si hsi
      have hhist : s.historyOf f obj = ObjectHistories.search si obj.objectId := by simp [historyOf, hsi]
      split
      · rename_i hun
        exact .skip item f obj (by simp [Qualifies, hun]) (by simp [hhist, ObjectHistories.search, hun.2])
      · rename_i hun
        rw [← hhist]
        split
        · rename_i hinfer
          exact .infer item f obj ⟨by simp [hsi], hun, hinfer⟩
        · rename_i hinfer
          have hq : ¬ s.Qualifies f obj := fun hq => hinfer hq.2.2
          split
          · rename_i hnone
            exact .skip item f obj hq (by simp [hnone])
          · rename_i h hh
            split
            · rename_i hd
              exact .defer item f obj hq hh hd
            · rename_i hd
              split
              · exact .access item f obj h hq hd
              · exact .skip item f obj hq fun _ => hd

theorem inferObject_untouched (ok : Bool) (item : Item) (f : NvDsFrameMeta R) (obj : NvDsObjectMeta R)
    (history : Option ℕ) : s.Untouched (s.inferObject ok buffer item f obj history rest batch) := by
  unfold inferObject
  dsimp only
  split
  · exact ⟨rfl, rfl, rfl, _, rfl⟩
  · exact ⟨rfl, rfl, rfl, _, rfl⟩

theorem processWork_untouched (ok : Bool) (w : Work R) :
    s.Untouched (s.processWork ok buffer w rest batch) := by
  have hcase := s.processWork_cases buffer rest batch ok w
  generalize s.processWork ok buffer w rest batch = s' at hcase ⊢
  cases hcase with
  | seen f => exact ⟨rfl, rfl, rfl, _, rfl⟩
  | skip item f obj hq hd => exact ⟨rfl, rfl, rfl, _, rfl⟩
  | access item f obj h hq hd => exact ⟨rfl, rfl, rfl, _, rfl⟩
  | defer item f obj hq hh hd => exact s.deferObject_untouched buffer rest batch ok item f.frameNum _
  | infer item f obj hq => exact s.inferObject_untouched buffer rest batch ok item f obj _

/-- The loops go on, or an error ends them. -/
theorem processWork_submit (ok : Bool) (w : Work R) :
    (s.processWork ok buffer w rest batch).submit = .idle ∨
      ∃ batch', (s.processWork ok buffer w rest batch).submit = .objects buffer rest batch' ∧
        ((∀ b ∈ batch, b.Filling) → ∀ b ∈ batch', b.Filling) := by
  have hcase := s.processWork_cases buffer rest batch ok w
  generalize s.processWork ok buffer w rest batch = s' at hcase ⊢
  cases hcase with
  | seen f => exact .inr ⟨_, rfl, id⟩
  | skip item f obj hq hd => exact .inr ⟨_, rfl, id⟩
  | access item f obj h hq hd => exact .inr ⟨_, rfl, id⟩
  | defer item f obj hq hh hd =>
    unfold deferObject
    split
    · refine .inr ⟨_, rfl, fun hb b hmem => ?_⟩
      obtain rfl := Option.some.inj hmem
      exact GstNvInferBatch.filling_getD (b := { inbuf := some buffer }) hb ⟨rfl, rfl⟩
    · exact .inl rfl
  | infer item f obj hq =>
    unfold inferObject
    dsimp only
    split
    · refine .inr ⟨_, rfl, fun hb b hmem => ?_⟩
      obtain rfl := Option.some.inj hmem
      exact GstNvInferBatch.filling_getD (b := { inbuf := if s.cfg.classifierAsyncMode then none else some buffer }) hb
        ⟨rfl, rfl⟩
    · exact .inl rfl

/-- What a step can do. -/
inductive StepCases : Action R → GstNvInfer R → Prop
  | begins {buf : GstBuffer R} {s' : GstNvInfer R} (hs : s.submit = .idle)
      (hn : s.impl.nextContextReplacement = none) (h : s.beginBuffer buf = some s') :
      StepCases (.submitInputBuffer buf) s'
  | flush {buf : GstBuffer R} {ctx : ℕ} (hs : s.submit = .idle)
      (hn : s.impl.nextContextReplacement = some ctx) :
      StepCases (.submitInputBuffer buf) { s with
        impl := { s.impl with nextContextReplacement := none }
        queues := s.queues.pushInput .marker
        submit := .flushing buf ctx false }
  | flushGoesOn {buf : GstBuffer R} {ctx : ℕ} {processOnly : Bool} (hs : s.submit = .flushing buf ctx processOnly)
      (he : s.queues.emptied processOnly = some false) :
      StepCases .flushed { s with submit := .flushing buf ctx true }
  | flushEnds {buf : GstBuffer R} {ctx : ℕ} {processOnly : Bool} {s' : GstNvInfer R}
      (hs : s.submit = .flushing buf ctx processOnly) (he : s.queues.emptied processOnly = some true)
      (h : s.resetContext buf ctx = some s') : StepCases .flushed s'
  | frame {ok : Bool} {buffer : ℕ} {f : NvDsFrameMeta R} {i : ℕ} {rest : List (NvDsFrameMeta R × ℕ)}
      {batch : Option GstNvInferBatch} (hs : s.submit = .fullFrame buffer ((f, i) :: rest) batch) :
      StepCases (.processFrame ok) (s.processFrame ok buffer f i rest batch)
  | framesEnd {ok : Bool} {buffer : ℕ} (hs : s.submit = .fullFrame buffer [] none) :
      StepCases (.processFrame ok) { s with submit := .pushing buffer }
  | work {ok : Bool} {buffer : ℕ} {w : Work R} {rest : List (Work R)} {batch : Option GstNvInferBatch}
      (hs : s.submit = .objects buffer (w :: rest) batch)
      (hb : batch.any (·.frames.length = s.cfg.maxBatchSize) = false) :
      StepCases (.processWork ok) (s.processWork ok buffer w rest batch)
  | pushBatch {ok : Bool} {buffer : ℕ} {rest : List (Work R)} {batch : GstNvInferBatch}
      (hs : s.submit = .objects buffer rest (some batch)) :
      StepCases (.pushBatch ok) (s.pushBatch ok buffer rest batch)
  | objectsEnd {buffer : ℕ} (hs : s.submit = .objects buffer [] none) :
      StepCases .endObjects { s.cleanupHistoryMap with submit := .pushing buffer }
  | tensorBatch {buffer : ℕ} {frames : List (Item × ℕ)} {status : NvDsInferStatus}
      (hs : s.submit = .tensors buffer) (hn : frames ≠ []) (hl : frames.length ≤ s.cfg.maxBatchSize) :
      StepCases (.tensorBatch frames status) (s.tensorBatch buffer frames status)
  | tensorsEnd {buffer : ℕ} {ok : Bool} (hs : s.submit = .tensors buffer) :
      StepCases (.endTensors ok) { s with submit := if ok then .pushing buffer else .idle }
  | pushBuffer {buffer : ℕ} (hs : s.submit = .pushing buffer) : StepCases .pushBuffer (s.pushBuffer buffer)
  | event {e : SinkEvent} (hs : s.submit = .idle) : StepCases (.sinkEvent e) (s.sinkEvent e)
  | eventGoesOn {e : SinkEvent} {processOnly : Bool} (hs : s.submit = .inEvent e processOnly)
      (he : s.queues.emptied processOnly = some false) :
      StepCases .eventFlushed { s with submit := .inEvent e true }
  | eventEnds {e : SinkEvent} {processOnly : Bool} (hs : s.submit = .inEvent e processOnly)
      (he : s.queues.emptied processOnly = some true) : StepCases .eventFlushed (s.handleEvent e)
  | inputPop {q : Queues} (ht : s.cfg.inputTensorFromMeta = false)
      (h : s.queues.inputPop s.impl.inferCtx = some q) : StepCases .inputPop { s with queues := q }
  | inputQueued {status : NvDsInferStatus} {q : Queues} (h : s.queues.inputQueued status = some q) :
      StepCases (.inputQueued status) { s with queues := q }
  | outputMarker {b : GstNvInferBatch} {c : Option ℕ} {entries : List (GstNvInferBatch × Option ℕ)}
      (hl : s.queues.outputLoop = .waiting) (hq : s.queues.processQueue = (b, c) :: entries)
      (hm : b.eventMarker = true) :
      StepCases .outputPop { s with queues := { s.queues with processQueue := entries }.finish b }
  | outputPending {b : GstNvInferBatch} {c : Option ℕ} {entries : List (GstNvInferBatch × Option ℕ)} {log : Log R}
      (hl : s.queues.outputLoop = .waiting) (hq : s.queues.processQueue = (b, c) :: entries)
      (hm : b.eventMarker = false) (hf : b.frames = []) (hp : b.pushBuffer = false)
      (h : s.attachPending b.objsPendingMetaAttach = some log) :
      StepCases .outputPop { s with queues := { s.queues with processQueue := entries }.finish b, log := log }
  | outputTakesPush {b : GstNvInferBatch} {c : Option ℕ} {entries : List (GstNvInferBatch × Option ℕ)}
      (hl : s.queues.outputLoop = .waiting) (hq : s.queues.processQueue = (b, c) :: entries)
      (hm : b.eventMarker = false) (hp : b.pushBuffer = true) :
      StepCases .outputPop { s with
        queues := { s.queues with processQueue := entries, outputLoop := .pushing b } }
  | outputTakes {b : GstNvInferBatch} {c : Option ℕ} {entries : List (GstNvInferBatch × Option ℕ)}
      (hl : s.queues.outputLoop = .waiting) (hq : s.queues.processQueue = (b, c) :: entries)
      (hm : b.eventMarker = false) (hf : b.frames ≠ []) (hp : b.pushBuffer = false) :
      StepCases .outputPop { s with
        queues := { s.queues with processQueue := entries, outputLoop := .dequeuing b c none } }
  | outputPush {b : GstNvInferBatch} (hl : s.queues.outputLoop = .pushing b) :
      StepCases .outputPush { s with
        queues := s.queues.finish b
        log := { s.log with pushed := s.log.pushed ++ b.inbuf.toList } }
  | outputContext {b : GstNvInferBatch} {c : Option ℕ} (hl : s.queues.outputLoop = .dequeuing b c none) :
      StepCases .outputContext { s with
        queues := { s.queues with outputLoop := .dequeuing b c (some s.impl.inferCtx) } }
  | outputAttach {b : GstNvInferBatch} {c : Option ℕ} {ctx : ℕ} {outputs : List GstNvInferObjectInfo}
      {s' : GstNvInfer R} (hl : s.queues.outputLoop = .dequeuing b c (some ctx))
      (h : s.outputAttach b c ctx outputs = some s') : StepCases (.outputDequeued .success outputs) s'
  | outputFails {b : GstNvInferBatch} {c : Option ℕ} {ctx : ℕ} {status : NvDsInferStatus}
      {outputs : List GstNvInferObjectInfo} (hl : s.queues.outputLoop = .dequeuing b c (some ctx))
      (hst : status ≠ .success) :
      StepCases (.outputDequeued status outputs) { s with queues := s.queues.finish b }
  | loadModel (h : s.impl.loading = false) : StepCases .loadModel { s with
      impl := { s.impl with loading := s.impl.nextContextReplacement = none } }
  | loadFailed (h : s.impl.loading = true) : StepCases .loadFailed { s with impl := { s.impl with loading := false } }
  | triggerContextReplace (h : s.impl.loading = true) : StepCases .triggerContextReplace { s with impl := { s.impl with
      loading := false
      nextContextReplacement := some s.impl.contexts
      contexts := s.impl.contexts + 1 } }

end GstNvInfer

open GstNvInfer

theorem step_cases [CFloat R] {s s' : GstNvInfer R} {a : Action R} (h : s.step a = some s') :
    s.StepCases a s' := by
  cases a with
  | submitInputBuffer buf =>
    simp only [step] at h
    split at h
    · rename_i hs
      unfold ensureReplaceNextContext at h
      split at h
      · exact .begins hs (by assumption) h
      · obtain rfl := Option.some.inj h
        exact .flush hs (by assumption)
    · simp at h
  | flushed =>
    simp only [step] at h
    split at h
    · rename_i hs
      obtain ⟨ended, he, h⟩ := Option.bind_eq_some_iff.mp h
      cases ended with
      | true => exact .flushEnds hs he h
      | false =>
        obtain rfl := Option.some.inj h
        exact .flushGoesOn hs he
    · simp at h
  | processFrame ok =>
    simp only [step] at h
    split at h
    · obtain rfl := Option.some.inj h
      exact .frame (by assumption)
    · obtain rfl := Option.some.inj h
      exact .framesEnd (by assumption)
    · simp at h
  | processWork ok =>
    simp only [step] at h
    split at h
    · split at h
      · simp at h
      · rename_i hs hb
        obtain rfl := Option.some.inj h
        exact .work hs (by simpa using hb)
    · simp at h
  | pushBatch ok =>
    simp only [step] at h
    split at h
    · split at h
      · obtain rfl := Option.some.inj h
        exact .pushBatch (by assumption)
      · simp at h
    · simp at h
  | endObjects =>
    simp only [step] at h
    split at h
    · obtain rfl := Option.some.inj h
      exact .objectsEnd (by assumption)
    · simp at h
  | tensorBatch frames status =>
    simp only [step] at h
    split at h
    · split at h
      · rename_i hs hf
        obtain rfl := Option.some.inj h
        exact .tensorBatch hs hf.1 hf.2
      · simp at h
    · simp at h
  | endTensors ok =>
    simp only [step] at h
    split at h
    · obtain rfl := Option.some.inj h
      exact .tensorsEnd (by assumption)
    · simp at h
  | pushBuffer =>
    simp only [step] at h
    split at h
    · obtain rfl := Option.some.inj h
      exact .pushBuffer (by assumption)
    · simp at h
  | sinkEvent e =>
    simp only [step] at h
    split at h
    · obtain rfl := Option.some.inj h
      exact .event (by assumption)
    · simp at h
  | eventFlushed =>
    simp only [step] at h
    split at h
    · rename_i hs
      obtain ⟨ended, he, rfl⟩ := Option.map_eq_some_iff.mp h
      cases ended with
      | true => exact .eventEnds hs he
      | false => exact .eventGoesOn hs he
    · simp at h
  | inputPop =>
    simp only [step] at h
    split at h
    · simp at h
    · rename_i ht
      obtain ⟨q, hq, rfl⟩ := Option.map_eq_some_iff.mp h
      exact .inputPop (by simpa using ht) hq
  | inputQueued status =>
    obtain ⟨q, hq, rfl⟩ := Option.map_eq_some_iff.mp h
    exact .inputQueued hq
  | outputPop =>
    simp only [step, outputPop] at h
    split at h
    · rename_i b c entries hl hq
      split at h
      · rename_i hm
        obtain rfl := Option.some.inj h
        exact .outputMarker hl hq hm
      · rename_i hm
        simp only [Bool.not_eq_true] at hm
        split at h
        · rename_i hf
          obtain ⟨log, ha, rfl⟩ := Option.map_eq_some_iff.mp h
          exact .outputPending hl hq hm hf.1 hf.2 ha
        · rename_i hf
          split at h
          · obtain rfl := Option.some.inj h
            exact .outputTakesPush hl hq hm (by assumption)
          · rename_i hp
            simp only [Bool.not_eq_true] at hp
            obtain rfl := Option.some.inj h
            exact .outputTakes hl hq hm (fun hne => hf ⟨hne, hp⟩) hp
    · simp at h
  | outputPush =>
    simp only [step, GstNvInfer.outputPush] at h
    split at h
    · obtain rfl := Option.some.inj h
      exact .outputPush (by assumption)
    · simp at h
  | outputContext =>
    simp only [step, GstNvInfer.outputContext] at h
    split at h
    · obtain rfl := Option.some.inj h
      exact .outputContext (by assumption)
    · simp at h
  | outputDequeued status outputs =>
    simp only [step, outputDequeued] at h
    split at h
    · rename_i hl
      split at h
      · rename_i hst
        exact hst ▸ .outputAttach hl h
      · obtain rfl := Option.some.inj h
        exact .outputFails hl (by assumption)
    · simp at h
  | loadModel =>
    simp only [step] at h
    split at h
    · simp at h
    · rename_i hl
      obtain rfl := Option.some.inj h
      exact .loadModel (by simpa using hl)
  | loadFailed =>
    simp only [step] at h
    split at h
    · obtain rfl := Option.some.inj h
      exact .loadFailed (by assumption)
    · simp at h
  | triggerContextReplace =>
    simp only [step] at h
    split at h
    · obtain rfl := Option.some.inj h
      exact .triggerContextReplace (by assumption)
    · simp at h

theorem cfg_step [CFloat R] {s s' : GstNvInfer R} {a : Action R} (h : s.step a = some s') : s'.cfg = s.cfg := by
  cases step_cases h with
  | begins hs hn hb => exact (s.beginBuffer_frame hb).cfg
  | flushEnds hs he hb => exact (GstNvInfer.beginBuffer_frame _ hb).cfg
  | frame hs =>
    unfold GstNvInfer.processFrame
    dsimp only
    split
    · split <;> rfl
    · rfl
  | work hs hb => exact (s.processWork_untouched _ _ _ _ _).cfg
  | pushBatch hs => unfold GstNvInfer.pushBatch; split <;> rfl
  | objectsEnd hs => exact s.cleanupHistoryMap_untouched.cfg
  | @tensorBatch _ _ status hs hn hl => cases status <;> rfl
  | pushBuffer hs => unfold GstNvInfer.pushBuffer; split <;> rfl
  | event hs =>
    unfold GstNvInfer.sinkEvent
    split
    · rfl
    · exact (s.handleEvent_untouched _).cfg
  | eventEnds hs he => exact (s.handleEvent_untouched _).cfg
  | outputAttach hl ha => exact (s.outputAttach_frame ha).cfg
  | _ => rfl

end Phases
end NvInfer
end DeepStream
