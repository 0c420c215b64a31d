/-
# What a section does to the batches

Each section of the threads, seen by where the batches are: what is pending,
what the threads have still to do, what was completed. Most sections change
nothing of that. The two modes have their own cases, the sections of `flushReqs`
are the same in both.
-/
import DeepStream.Tracker.Threads

namespace DeepStream
namespace Tracker

open Std

namespace Sys

variable {cfg : TrackerConfig} {s s' : Sys} {a : Action}

/-! ### The caller of `submitInput` -/

/-- A surface is missing only when the library wants none. -/
def BufOk (cfg : TrackerConfig) (p : ProcParams) : Prop :=
  cfg.inputTensorMeta = true → (p.pConvBuf = none ↔ cfg.numTransforms = 0)

/-- The batch that is being submitted. -/
structure Submitting (cfg : TrackerConfig) (s : Sys) : Prop where
  converted : ∀ p, s.submit = .converted p → p.call = s.calls ∧ BufOk cfg p
  registered : ∀ p, s.submit = .registered p → cfg.subBatchSizes.length = 0

theorem submitting_convert {frames : List (Option NvDsFrameMeta)} {buf : Option ConvBuf} {free : List ℕ}
    (h : cfg.inputTensorMeta = true → (buf = none ↔ cfg.numTransforms = 0)) :
    Submitting cfg ({ s with freeQueue := free }.convert frames buf) where
  converted := by
    intro p hp
    cases hp
    exact ⟨rfl, h⟩
  registered := nofun

theorem submitting_idle (h : s.submit = .idle) : Submitting cfg s where
  converted := fun p hp => by
    rw [h] at hp
    cases hp
  registered := fun p hp => by
    rw [h] at hp
    cases hp

theorem Submitting.of_eq (h : Submitting cfg s) (hs : s'.submit = s.submit) (hc : s'.calls = s.calls) :
    Submitting cfg s' :=
  ⟨fun p hp => hc ▸ h.converted p (hs ▸ hp), fun p hp => h.registered p (hs ▸ hp)⟩

theorem submitInput_submitting {frames : List (Option NvDsFrameMeta)} {result : ConvertResult}
    (hs : s.submitInput cfg frames result = some s') : Submitting cfg s' := by
  unfold submitInput at hs
  split at hs
  · split at hs
    · cases hs
      exact submitting_idle rfl
    · split at hs
      · rename_i h0
        cases hs
        exact submitting_convert (s := s) fun _ => by simp [h0]
      · rename_i h0
        split at hs
        · split at hs <;> cases hs
          · exact submitting_convert (s := s) fun _ => by simp [h0]
          · exact submitting_idle rfl
        · rename_i hmeta
          split at hs <;> cases hs
          · exact submitting_convert (s := s) fun h => absurd h hmeta
          · exact submitting_idle rfl
          · exact submitting_idle rfl
  · cases hs

theorem submitNext_submitting (hs : s.submitNext cfg = some s') : Submitting cfg s' := by
  unfold submitNext at hs
  split at hs
  · cases hs
  · split at hs
    · rename_i h0
      cases hs
      unfold register
      split
      · exact submitting_idle rfl
      · exact ⟨nofun, fun _ _ => h0⟩
    · cases hs
      unfold dispatchSubBatches
      split
      · exact submitting_idle rfl
      · dsimp only
        split <;> exact submitting_idle rfl
  · cases hs
    exact submitting_idle rfl

/-! ### What the sections change -/

/-- What `processBatch` still has to erase. -/
def held (s : Sys) : List ProcParams :=
  (match s.batch with
    | .popped p | .processed p => [p]
    | _ => []) ++ s.procQueue

/-- What it erased from `m_PendingBatch` and did not push yet. -/
def unpushed (s : Sys) : List ProcParams :=
  match s.batch with
  | .erased p => [p]
  | _ => []

def unreturned (s : Sys) : List ProcParams :=
  match s.batch with
  | .pushed p => [p]
  | _ => []

/-- What is pending and not queued for `processBatch` yet. -/
def registering (s : Sys) : List ProcParams :=
  match s.submit with
  | .registered p => [p]
  | _ => []

/-- Nothing moves: neither what is pending or to be done nor what is done. -/
structure SameBatches (s s' : Sys) : Prop where
  pending : s'.pendingBatch = s.pendingBatch
  jobs : ∀ sbId, s'.jobs sbId = s.jobs sbId
  held : s'.held = s.held
  unpushed : s'.unpushed = s.unpushed
  unreturned : s'.unreturned = s.unreturned
  registering : s'.registering = s.registering
  accepted : s'.accepted = s.accepted
  returned : s'.returned = s.returned
  calls : s.calls ≤ s'.calls

structure SameFlush (s s' : Sys) : Prop where
  history : s'.history = s.history
  polling : s'.polling = s.polling
  cleared : s'.cleared = s.cleared

/-- A section of `flushReqs`. -/
inductive FlushStep (s : Sys) (a : Action) (s' : Sys) : Prop
  | called (history : s'.history = s.history) (polling : s'.polling = s.polling ++ [s.accepted.length])
      (cleared : s'.cleared = s.cleared)
  | passed (i before : ℕ) (hi : s.polling[i]? = some before) (hempty : s.pendingBatch.isEmpty)
      (history : s'.history = s.history) (polling : s'.polling = s.polling.eraseIdx i)
      (cleared : s'.cleared = s.cleared ++ [before])
  | pushed (i before : ℕ) (ha : a = .flushPush i) (hi : s.cleared[i]? = some before)
      (history : s'.history = s.history ++ [.eventMarker before]) (polling : s'.polling = s.polling)
      (cleared : s'.cleared = s.cleared.eraseIdx i)

/-- With sub-batches. -/
inductive SubStep (cfg : TrackerConfig) (s : Sys) (a : Action) (s' : Sys) : Prop
  | quiet (hb : SameBatches s s') (hf : SameFlush s s')
  | flush (hb : SameBatches s s') (hf : FlushStep s a s')
  | dispatch (ha : a = .submitNext) (p : ProcParams) (d : StreamMaps.Dispatch)
      (hsubmit : s.submit = .converted p)
      (hd : s.maps.dispatch cfg (queueFrames cfg p.input.frames) = d) (hfree : s.batchId ∉ s.pendingBatch)
      (pending : s'.pendingBatch =
        s.pendingBatch.insert s.batchId ⟨d.requests.map Prod.fst, p.call⟩)
      (jobs : ∀ sbId, s'.jobs sbId = s.jobs sbId ++
        List.replicate ((d.requests.map Prod.fst).count sbId) { p with batchId := s.batchId })
      (held : s'.held = s.held) (unpushed : s'.unpushed = s.unpushed)
      (accepted : s'.accepted = s.accepted ++ if d.ok then [p.input] else [])
      (returned : s'.returned = s.returned) (calls : s'.calls = s.calls + 1) (hf : SameFlush s s')
  | partDone (sbId : SubBatchId) (p : ProcParams) (rest : List ProcParams) (pb : PendingBatch)
      (hjobs : s.jobs sbId = p :: rest) (hpb : s.pendingBatch[p.batchId]? = some pb)
      (hmem : sbId ∈ pb.waiting) (hleft : pb.waiting.erase sbId ≠ [])
      (pending : s'.pendingBatch =
        s.pendingBatch.insert p.batchId { pb with waiting := pb.waiting.erase sbId })
      (jobs : ∀ sb, s'.jobs sb = if sb = sbId then rest else s.jobs sb) (held : s'.held = s.held)
      (unpushed : s'.unpushed = s.unpushed) (accepted : s'.accepted = s.accepted) (returned : s'.returned = s.returned)
      (calls : s'.calls = s.calls) (hf : SameFlush s s')
  | batchDone (sbId : SubBatchId) (p : ProcParams) (rest : List ProcParams) (pb : PendingBatch)
      (hjobs : s.jobs sbId = p :: rest) (hpb : s.pendingBatch[p.batchId]? = some pb)
      (hmem : sbId ∈ pb.waiting) (hleft : pb.waiting.erase sbId = [])
      (hbuf : ¬(cfg.inputTensorMeta = true ∧ p.pConvBuf = none))
      (pending : s'.pendingBatch = s.pendingBatch.erase p.batchId)
      (jobs : ∀ sb, s'.jobs sb = if sb = sbId then rest else s.jobs sb) (held : s'.held = s.held)
      (unpushed : s'.unpushed = s.unpushed) (accepted : s'.accepted = s.accepted) (returned : s'.returned = s.returned ++ [p.call])
      (calls : s'.calls = s.calls) (history : s'.history = s.history ++ [.batch p.input])
      (polling : s'.polling = s.polling) (cleared : s'.cleared = s.cleared)
  | stray (sbId : SubBatchId) (p : ProcParams) (rest : List ProcParams)
      (hjobs : s.jobs sbId = p :: rest)
      (hstray : ∀ pb, s.pendingBatch[p.batchId]? = some pb → sbId ∉ pb.waiting)

/-- Without sub-batches. -/
inductive LineStep (cfg : TrackerConfig) (s : Sys) (a : Action) (s' : Sys) : Prop
  | quiet (hb : SameBatches s s') (hf : SameFlush s s')
  | flush (hb : SameBatches s s') (hf : FlushStep s a s')
  | register (p : ProcParams) (hsubmit : s.submit = .converted p) (hfree : s.batchId ∉ s.pendingBatch)
      (eq : s' = { s with
        submit := .registered { p with batchId := s.batchId }
        pendingBatch := s.pendingBatch.insert s.batchId ⟨[], p.call⟩
        batchId := wrapAdd 32 s.batchId 1
        calls := s.calls + 1 })
  | enqueue (p : ProcParams) (hsubmit : s.submit = .registered p)
      (eq : s' = { s with
        submit := .idle
        procQueue := s.procQueue ++ [p]
        accepted := s.accepted ++ [p.input] })
  | erase (p : ProcParams) (hbatch : s.batch = .processed p) (hmem : p.batchId ∈ s.pendingBatch)
      (eq : s' = { s with batch := .erased p, pendingBatch := s.pendingBatch.erase p.batchId })
  | stray (p : ProcParams) (hbatch : s.batch = .processed p) (hmem : p.batchId ∉ s.pendingBatch)
  | push (p : ProcParams) (hbatch : s.batch = .erased p)
      (eq : s' = { s with
        batch := .pushed p
        completionQueue := s.completionQueue ++ [.batch p.input] })
  | finish (p : ProcParams) (free : List ℕ) (hbatch : s.batch = .pushed p)
      (hbuf : ¬(cfg.inputTensorMeta = true ∧ p.pConvBuf = none))
      (eq : s' = { s with batch := .idle, freeQueue := free, returned := s.returned ++ [p.call] })

/-! ### The sections common to both modes -/

/-- `submitInput` up to the conversion touches its own place, the pool and the
number of the call. -/
theorem submitInput_eq {frames : List (Option NvDsFrameMeta)} {result : ConvertResult}
    (hs : s.submitInput cfg frames result = some s') :
    s.submit = .idle ∧ ∃ pc free calls, s' = { s with submit := pc, freeQueue := free, calls := calls } ∧
      s.calls ≤ calls ∧ ∀ p, pc ≠ .registered p := by
  unfold submitInput at hs
  split at hs
  · rename_i hidle
    refine ⟨hidle, ?_⟩
    repeat' split at hs
    all_goals first
      | (cases hs; done)
      | (cases hs; exact ⟨_, _, _, rfl, Nat.le_succ _, nofun⟩)
      | (cases hs; exact ⟨_, _, _, rfl, le_rfl, nofun⟩)
  · cases hs

/-- The section that marks a request complete leaves the maps, the submitter, the
threads and the calls of the library alone. -/
theorem completeReq_eq {sbId : SubBatchId} {p : ProcParams} (hs : s.completeReq cfg sbId p = some s') :
    ∃ error free pending conv queue returned, s' = { s with
      trackerLibError := error, freeQueue := free, pendingBatch := pending, convBufComplete := conv
      completionQueue := queue, returned := returned } := by
  unfold completeReq at hs
  split at hs
  · cases hs
    exact ⟨_, _, _, _, _, _, rfl⟩
  · split at hs
    · dsimp only at hs
      split at hs
      · obtain ⟨t, ht, rfl⟩ := Option.map_eq_some_iff.mp hs
        unfold returnBuffer at ht
        split at ht <;> cases ht
        exact ⟨_, _, _, _, _, _, rfl⟩
      · cases hs
        exact ⟨_, _, _, _, _, _, rfl⟩
    · cases hs
      exact ⟨_, _, _, _, _, _, rfl⟩

theorem sameFlush_of_eq (hd : s'.delivered = s.delivered) (hq : s'.completionQueue = s.completionQueue)
    (hp : s'.polling = s.polling) (hc : s'.cleared = s.cleared) : SameFlush s s' :=
  ⟨by rw [history, hd, hq, history], hp, hc⟩

theorem jobs_removeSource (s : Sys) (sourceId : StreamId) (flag : Bool) (sbId : SubBatchId) :
    (s.removeSource cfg sourceId flag).jobs sbId = s.jobs sbId := by
  have hnil : ∀ l : List (SubBatchId × SurfaceStreamId),
      (l.map fun e => DispatchReq.removeSource e.2).filterMap DispatchReq.params? = [] := by
    intro l
    simp [List.filterMap_map, DispatchReq.params?, Function.comp_def]
  simp only [jobs, removeSource, List.filterMap_append, hnil, List.append_nil]

/-- The action is a section of `submitInput` or of a processing thread that may
move a batch. -/
def Action.Moves : Action → Prop
  | .submitNext | .processBatch _ | .processSubBatch _ _ => True
  | _ => False

theorem sameBatches_of_step (ha : ¬ Action.Moves a) (hs : s.step cfg a = some s') :
    SameBatches s s' ∧ (SameFlush s s' ∨ FlushStep s a s') := by
  cases a with
  | submitInput frames result =>
    obtain ⟨hidle, pc, free, calls, rfl, hle, hpc⟩ := submitInput_eq hs
    refine ⟨⟨rfl, fun _ => rfl, rfl, rfl, rfl, ?_, rfl, rfl, hle⟩, .inl (sameFlush_of_eq rfl rfl rfl rfl)⟩
    rw [registering, registering, hidle]
    cases pc with
    | registered p => exact absurd rfl (hpc p)
    | _ => rfl
  | submitNext | processBatch _ | processSubBatch _ _ => exact absurd trivial ha
  | flushReqs =>
    cases hs
    exact ⟨⟨rfl, fun _ => rfl, rfl, rfl, rfl, rfl, rfl, rfl, le_rfl⟩, .inr (.called rfl rfl rfl)⟩
  | flushCleared i =>
    simp only [step] at hs
    split at hs
    · cases hs
    · rename_i before hi
      split at hs
      · rename_i hempty
        cases hs
        exact ⟨⟨rfl, fun _ => rfl, rfl, rfl, rfl, rfl, rfl, rfl, le_rfl⟩,
          .inr (.passed i before hi hempty rfl rfl rfl)⟩
      · cases hs
  | flushPush i =>
    simp only [step] at hs
    split at hs
    · cases hs
    · rename_i before hi
      cases hs
      exact ⟨⟨rfl, fun _ => rfl, rfl, rfl, rfl, rfl, rfl, rfl, le_rfl⟩,
        .inr (.pushed i before rfl hi (List.append_assoc ..).symm rfl rfl)⟩
  | waitForCompletion =>
    simp only [step] at hs
    split at hs
    · cases hs
    · rename_i entry rest hq
      cases hs
      refine ⟨⟨rfl, fun _ => rfl, rfl, rfl, rfl, rfl, rfl, rfl, le_rfl⟩, .inl ⟨?_, rfl, rfl⟩⟩
      simp [history, hq]
  | removeSource sourceId flag =>
    cases hs
    exact ⟨⟨rfl, jobs_removeSource s sourceId flag, rfl, rfl, rfl, rfl, rfl, rfl, le_rfl⟩,
      .inl (sameFlush_of_eq rfl rfl rfl rfl)⟩
  | trackerLibError =>
    cases hs
    exact ⟨⟨rfl, fun _ => rfl, rfl, rfl, rfl, rfl, rfl, rfl, le_rfl⟩, .inl (sameFlush_of_eq rfl rfl rfl rfl)⟩

/-! ### The sections with sub-batches -/

theorem jobs_setWorker (s : Sys) (sbId : SubBatchId) (pc : WorkerPc) (sb : SubBatchId) :
    (s.setWorker sbId pc).jobs sb = if sb = sbId then
      currentJob pc ++ (s.reqQueue sbId).filterMap DispatchReq.params? else s.jobs sb := by
  simp only [jobs, setWorker, Function.update_apply]
  split
  · rename_i h
    rw [h]
  · rfl

theorem filterMap_requestsFor (p : ProcParams) (requests : List SubBatchFrames) (sbId : SubBatchId) :
    (requestsFor p requests sbId).filterMap DispatchReq.params? =
      List.replicate ((requests.map Prod.fst).count sbId) p := by
  induction requests with
  | nil => rfl
  | cons r requests ih =>
    rw [requestsFor] at ih ⊢
    by_cases h : r.1 = sbId
    · simp [h, ih, DispatchReq.params?, List.replicate_succ]
    · simp [h, ih]

theorem sameBatches_reject (h : s.registering = []) : SameBatches s s.reject :=
  ⟨rfl, fun _ => rfl, rfl, rfl, rfl, h.symm, rfl, rfl, Nat.le_succ _⟩

theorem subStep_submitNext (hsub : cfg.subBatchSizes.length ≠ 0) (h : Submitting cfg s)
    (hs : s.submitNext cfg = some s') : SubStep cfg s .submitNext s' := by
  unfold submitNext at hs
  split at hs
  · cases hs
  · rename_i p hp
    rw [if_neg hsub, Option.some.injEq] at hs
    subst hs
    have hreg : s.registering = [] := by simp [registering, hp]
    unfold dispatchSubBatches
    split
    · exact .quiet (sameBatches_reject hreg) (sameFlush_of_eq rfl rfl rfl rfl)
    · rename_i hfree
      dsimp only
      generalize hd : s.maps.dispatch cfg (queueFrames cfg p.input.frames) = d
      have hjobs : ∀ sb, currentJob (s.worker sb) ++ (s.reqQueue sb ++
          requestsFor { p with batchId := s.batchId } d.requests sb).filterMap DispatchReq.params? =
            s.jobs sb ++ List.replicate ((d.requests.map Prod.fst).count sb) { p with batchId := s.batchId } := by
        intro sb
        rw [List.filterMap_append, filterMap_requestsFor, ← List.append_assoc, jobs]
      split
      · rename_i hok
        exact .dispatch rfl p d hp hd hfree rfl hjobs rfl rfl (by rw [hok]; rfl) rfl rfl
          (sameFlush_of_eq rfl rfl rfl rfl)
      · rename_i hok
        exact .dispatch rfl p d hp hd hfree rfl hjobs rfl rfl (by simp [hok, reject]) rfl rfl
          (sameFlush_of_eq rfl rfl rfl rfl)
  · rename_i p hp
    exact absurd (h.registered p hp) hsub

/-- A request that goes from the queue to the thread is still to be completed. -/
theorem jobs_pop {sbId : SubBatchId} {req : DispatchReq} {rest : List DispatchReq}
    (hidle : s.worker sbId = .idle) (hq : s.reqQueue sbId = req :: rest) (sb : SubBatchId) :
    ({ s with reqQueue := Function.update s.reqQueue sbId rest }.setWorker sbId (.popped req)).jobs sb =
      s.jobs sb := by
  rw [jobs_setWorker]
  split
  · rename_i h
    subst h
    cases req with
    | frames p frameMap => simp [jobs, hidle, hq, currentJob, DispatchReq.params?]
    | removeSource ssId =>
      simp only [jobs, hidle, hq, currentJob, List.nil_append, Function.update_self]
      exact (List.filterMap_cons_none rfl).symm
  · rename_i h
    simp only [jobs, Function.update_apply, if_neg h]

/-- A change of the thread that keeps its request. -/
theorem jobs_setWorker_of_eq {t : Sys} (hw : t.worker = s.worker) (hq : t.reqQueue = s.reqQueue)
    {sbId : SubBatchId} {pc : WorkerPc} (hpc : currentJob pc = currentJob (s.worker sbId))
    (sb : SubBatchId) : (t.setWorker sbId pc).jobs sb = s.jobs sb := by
  rw [jobs_setWorker, hq, hpc]
  split
  · rename_i h
    rw [h, jobs]
  · rw [jobs, hw, hq, jobs]

theorem jobs_setWorker_idle {t : Sys} (hw : t.worker = s.worker) (hq : t.reqQueue = s.reqQueue)
    {sbId : SubBatchId} {p : ProcParams} {rest : List ProcParams} (hjobs : s.jobs sbId = p :: rest)
    (hpc : currentJob (s.worker sbId) = [p]) (sb : SubBatchId) :
    (t.setWorker sbId .idle).jobs sb = if sb = sbId then rest else s.jobs sb := by
  rw [jobs, hpc, List.singleton_append, List.cons.injEq] at hjobs
  rw [jobs_setWorker, hq]
  split
  · exact hjobs.2
  · rw [jobs, hw, hq, jobs]

theorem subStep_completeReq {sbId : SubBatchId} {p : ProcParams} {t : Sys}
    (hpc : s.worker sbId = .processed p) (ht : s.completeReq cfg sbId p = some t) :
    SubStep cfg s a (t.setWorker sbId .idle) := by
  obtain ⟨rest, hjobs⟩ : ∃ rest, s.jobs sbId = p :: rest := ⟨_, by rw [jobs, hpc]; rfl⟩
  have hcur : currentJob (s.worker sbId) = [p] := by rw [hpc]; rfl
  unfold completeReq at ht
  split at ht
  · rename_i hnone
    exact .stray sbId p rest hjobs fun pb hpb => by rw [hnone] at hpb; cases hpb
  · rename_i pb hpb
    split at ht
    · rename_i hmem
      dsimp only at ht
      split at ht
      · rename_i hleft
        obtain ⟨t', ht', rfl⟩ := Option.map_eq_some_iff.mp ht
        unfold returnBuffer at ht'
        split at ht'
        · cases ht'
        · rename_i hbuf
          cases ht'
          exact .batchDone sbId p rest pb hjobs hpb hmem hleft hbuf rfl
            (jobs_setWorker_idle rfl rfl hjobs hcur) rfl rfl rfl rfl rfl (List.append_assoc ..).symm rfl rfl
      · rename_i hleft
        cases ht
        exact .partDone sbId p rest pb hjobs hpb hmem hleft rfl (jobs_setWorker_idle rfl rfl hjobs hcur)
          rfl rfl rfl rfl rfl (sameFlush_of_eq rfl rfl rfl rfl)
    · rename_i hmem
      refine .stray sbId p rest hjobs fun pb' hpb' => ?_
      rw [hpb] at hpb'
      cases hpb'
      exact hmem

theorem subStep_processSubBatch {sbId : SubBatchId} {objs : TrackedObjs}
    (hs : s.processSubBatch cfg sbId objs = some s') : SubStep cfg s a s' := by
  unfold processSubBatch at hs
  split at hs
  · rename_i hidle
    split at hs
    · cases hs
    · rename_i req rest hq
      cases hs
      exact .quiet ⟨rfl, jobs_pop hidle hq, rfl, rfl, rfl, rfl, rfl, rfl, le_rfl⟩
        (sameFlush_of_eq rfl rfl rfl rfl)
  · rename_i ssId hpc
    cases hs
    exact .quiet ⟨rfl, jobs_setWorker_of_eq rfl rfl (by rw [hpc]; rfl), rfl, rfl, rfl, rfl, rfl, rfl, le_rfl⟩
      (sameFlush_of_eq rfl rfl rfl rfl)
  · rename_i p frameMap hpc
    cases hs
    have hjobs : currentJob (.processed p) = currentJob (s.worker sbId) := by rw [hpc]; rfl
    unfold processReq
    split <;>
      exact .quiet ⟨rfl, jobs_setWorker_of_eq rfl rfl hjobs, rfl, rfl, rfl, rfl, rfl, rfl, le_rfl⟩
        (sameFlush_of_eq rfl rfl rfl rfl)
  · rename_i p hpc
    obtain ⟨t, ht, rfl⟩ := Option.map_eq_some_iff.mp hs
    exact subStep_completeReq hpc ht

/-- Every section with sub-batches. -/
theorem subStep (hsub : cfg.subBatchSizes.length ≠ 0) (h : Submitting cfg s)
    (hs : s.step cfg a = some s') : SubStep cfg s a s' := by
  by_cases ha : Action.Moves a
  · cases a with
    | submitNext => exact subStep_submitNext hsub h hs
    | processBatch objs =>
      simp only [step, if_neg hsub] at hs
      cases hs
    | processSubBatch sbId objs =>
      simp only [step] at hs
      split at hs
      · exact subStep_processSubBatch hs
      · cases hs
    | _ => exact absurd ha id
  · obtain ⟨hb, hf | hf⟩ := sameBatches_of_step ha hs
    · exact .quiet hb hf
    · exact .flush hb hf

/-! ### The sections without sub-batches -/

theorem lineStep_submitNext (hsub : cfg.subBatchSizes.length = 0) (hs : s.submitNext cfg = some s') :
    LineStep cfg s a s' := by
  unfold submitNext at hs
  split at hs
  · cases hs
  · rename_i p hp
    rw [if_pos hsub, Option.some.injEq] at hs
    subst hs
    unfold register
    split
    · exact .quiet (sameBatches_reject (by simp [registering, hp])) (sameFlush_of_eq rfl rfl rfl rfl)
    · rename_i hfree
      exact .register p hp hfree rfl
  · rename_i p hp
    cases hs
    exact .enqueue p hp rfl

theorem lineStep_processBatch {objs : List TrackedObjs} (hs : s.processBatch cfg objs = some s') :
    LineStep cfg s a s' := by
  unfold processBatch at hs
  split at hs
  · rename_i hidle
    split at hs
    · cases hs
    · rename_i p rest hq
      cases hs
      exact .quiet ⟨rfl, fun _ => rfl, by simp [held, hidle, hq], by simp [unpushed, hidle],
        by simp [unreturned, hidle], rfl, rfl, rfl, le_rfl⟩ (sameFlush_of_eq rfl rfl rfl rfl)
  · rename_i p hp
    have hpc : ({ s with batch := .processed p } : Sys).held = s.held ∧
        ({ s with batch := .processed p } : Sys).unpushed = s.unpushed ∧
          ({ s with batch := .processed p } : Sys).unreturned = s.unreturned := by
      simp [held, unpushed, unreturned, hp]
    split at hs <;> cases hs <;>
      exact .quiet ⟨rfl, fun _ => rfl, hpc.1, hpc.2.1, hpc.2.2, rfl, rfl, rfl, le_rfl⟩
        (sameFlush_of_eq rfl rfl rfl rfl)
  · rename_i p hp
    split at hs
    · rename_i hmem
      cases hs
      exact .erase p hp hmem rfl
    · rename_i hmem
      exact .stray p hp hmem
  · rename_i p hp
    cases hs
    exact .push p hp rfl
  · rename_i p hp
    unfold returnBuffer at hs
    split at hs
    · cases hs
    · rename_i hbuf
      cases hs
      exact .finish p _ hp hbuf rfl

/-- Every section without sub-batches. -/
theorem lineStep (hsub : cfg.subBatchSizes.length = 0) (hs : s.step cfg a = some s') : LineStep cfg s a s' := by
  by_cases ha : Action.Moves a
  · cases a with
    | submitNext => exact lineStep_submitNext hsub hs
    | processBatch objs =>
      rw [step, if_pos hsub] at hs
      exact lineStep_processBatch hs
    | processSubBatch sbId objs =>
      rw [step, hsub, if_neg (Nat.not_lt_zero _)] at hs
      cases hs
    | _ => exact absurd ha id
  · obtain ⟨hb, hf | hf⟩ := sameBatches_of_step ha hs
    · exact .quiet hb hf
    · exact .flush hb hf

/-! ### Runs -/

theorem submit_processBatch {objs : List TrackedObjs} (hs : s.processBatch cfg objs = some s') :
    s'.submit = s.submit ∧ s'.calls = s.calls := by
  unfold processBatch at hs
  split at hs
  · split at hs <;> cases hs
    exact ⟨rfl, rfl⟩
  · split at hs <;> cases hs <;> exact ⟨rfl, rfl⟩
  · split at hs <;> cases hs <;> exact ⟨rfl, rfl⟩
  · cases hs
    exact ⟨rfl, rfl⟩
  · unfold returnBuffer at hs
    split at hs <;> cases hs
    exact ⟨rfl, rfl⟩

theorem submit_processSubBatch {sbId : SubBatchId} {objs : TrackedObjs}
    (hs : s.processSubBatch cfg sbId objs = some s') : s'.submit = s.submit ∧ s'.calls = s.calls := by
  unfold processSubBatch at hs
  split at hs
  · split at hs <;> cases hs
    exact ⟨rfl, rfl⟩
  · cases hs
    exact ⟨rfl, rfl⟩
  · cases hs
    unfold processReq
    split <;> exact ⟨rfl, rfl⟩
  · obtain ⟨t, ht, rfl⟩ := Option.map_eq_some_iff.mp hs
    obtain ⟨_, _, _, _, _, _, rfl⟩ := completeReq_eq ht
    exact ⟨rfl, rfl⟩

theorem Submitting.step (h : Submitting cfg s) (hs : s.step cfg a = some s') : Submitting cfg s' := by
  cases a with
  | submitInput frames result => exact submitInput_submitting hs
  | submitNext => exact submitNext_submitting hs
  | processBatch objs =>
    simp only [Sys.step] at hs
    split at hs
    · exact h.of_eq (submit_processBatch hs).1 (submit_processBatch hs).2
    · cases hs
  | processSubBatch sbId objs =>
    simp only [Sys.step] at hs
    split at hs
    · exact h.of_eq (submit_processSubBatch hs).1 (submit_processSubBatch hs).2
    · cases hs
  | flushReqs | removeSource _ _ | trackerLibError =>
    cases hs
    exact h.of_eq rfl rfl
  | flushCleared i | flushPush i | waitForCompletion =>
    simp only [Sys.step] at hs
    repeat' split at hs
    all_goals first
      | (cases hs; done)
      | (cases hs; exact h.of_eq rfl rfl)

theorem submitting_started (h : Started cfg s) : Submitting cfg s := by
  obtain ⟨m, -, rfl⟩ := Option.map_eq_some_iff.mp h
  exact submitting_idle rfl

theorem Submitting.of_reach {ok : Sys → Action → Prop} (h : Reach (Sys.step cfg) ok (Started cfg) s) :
    Submitting cfg s :=
  h.invariant (fun _ => submitting_started) fun _ _ _ hI _ hs => hI.step hs

/-! ### The history -/

theorem completed_of_history (h : s'.history = s.history) : s'.completed = s.completed := by
  rw [completed, h, completed]

theorem FlushStep.completed_eq (h : FlushStep s a s') : s'.completed = s.completed := by
  cases h with
  | called h _ _ => exact completed_of_history h
  | passed _ _ _ _ h _ _ => exact completed_of_history h
  | pushed _ _ _ _ h _ _ => simp [completed, h, Completion.call?]

theorem completed_append {p : ProcParams} (h : s'.history = s.history ++ [.batch p.input]) :
    s'.completed = s.completed ++ [p.call] := by
  simp [completed, h, Completion.call?, ProcParams.call]

end Sys
end Tracker
end DeepStream
