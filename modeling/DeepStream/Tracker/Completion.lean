/-
# Every batch completes once

Each section of a processing thread leaves less work, so that the threads come
to rest, and then every accepted batch is completed: it was put on
`m_CompletionQueue` once, after its last request, and its convert buffer was
returned once, whatever the order of the sections. Two kinds of batches are not.
With sub-batches nobody completes a batch none of whose frames passes the filter
for the surface type, and a thread that has to delete a convert buffer where
there is none does not get past it.
-/
import DeepStream.Tracker.Pending
import Mathlib.Algebra.Order.BigOperators.Group.Finset

namespace DeepStream
namespace Tracker
namespace Sys

open Std

variable {cfg : TrackerConfig} {s s' : Sys} {a : Action}

/-! ### The work that is left -/

/-- A section of a processing thread. -/
def Processing : Action → Prop
  | .processBatch _ | .processSubBatch _ _ => True
  | _ => False

/-- No processing thread can go on. -/
def Idle (cfg : TrackerConfig) (s : Sys) : Prop := ∀ a s', Processing a → s.step cfg a ≠ some s'

def batchLeft : BatchPc → ℕ
  | .idle => 0
  | .pushed _ => 1
  | .erased _ => 2
  | .processed _ => 3
  | .popped _ => 4

def workerLeft : WorkerPc → ℕ
  | .idle => 0
  | .processed _ => 1
  | .popped _ => 2

/-- The sections that the thread of a sub-batch has still to run, at most. -/
def workOf (s : Sys) (sbId : SubBatchId) : ℕ := workerLeft (s.worker sbId) + 3 * (s.reqQueue sbId).length

/-- The sections that the processing threads have still to run, at most. -/
def work (cfg : TrackerConfig) (s : Sys) : ℕ :=
  batchLeft s.batch + 5 * s.procQueue.length + ∑ sbId ∈ Finset.range cfg.subBatchSizes.length, s.workOf sbId

theorem processBatch_left {objs : List TrackedObjs} (hs : s.processBatch cfg objs = some s') :
    batchLeft s'.batch + 5 * s'.procQueue.length < batchLeft s.batch + 5 * s.procQueue.length ∧
      s'.workOf = s.workOf := by
  unfold processBatch at hs
  split at hs
  · rename_i hidle
    split at hs <;> cases hs
    rename_i p rest hq
    refine ⟨?_, rfl⟩
    simp only [hidle, hq, batchLeft, List.length_cons]
    omega
  · rename_i p hp
    split at hs <;> cases hs <;> exact ⟨by simp [hp, batchLeft], rfl⟩
  · rename_i p hp
    split at hs <;> cases hs <;> exact ⟨by simp [hp, batchLeft], rfl⟩
  · rename_i p hp
    cases hs
    exact ⟨by simp [hp, batchLeft], rfl⟩
  · rename_i p hp
    unfold returnBuffer at hs
    split at hs <;> cases hs
    exact ⟨by simp [hp, batchLeft], rfl⟩

theorem workOf_setWorker (s : Sys) (sbId : SubBatchId) (pc : WorkerPc) (sb : SubBatchId) :
    (s.setWorker sbId pc).workOf sb =
      if sb = sbId then workerLeft pc + 3 * (s.reqQueue sbId).length else s.workOf sb := by
  simp only [workOf, setWorker, Function.update_apply]
  split
  · rename_i h
    rw [h]
  · rfl

/-- A section of the thread of a sub-batch is one of its own. -/
theorem processSubBatch_left {sbId : SubBatchId} {objs : TrackedObjs}
    (hs : s.processSubBatch cfg sbId objs = some s') :
    s'.workOf sbId < s.workOf sbId ∧ (∀ sb ≠ sbId, s'.workOf sb = s.workOf sb) ∧
      s'.batch = s.batch ∧ s'.procQueue = s.procQueue := by
  unfold processSubBatch at hs
  split at hs
  · rename_i hidle
    split at hs <;> cases hs
    rename_i req rest hq
    refine ⟨?_, fun sb hsb => ?_, rfl, rfl⟩
    · rw [workOf_setWorker, if_pos rfl, workOf, hidle, hq]
      simp only [workerLeft, Function.update_self, List.length_cons]
      omega
    · rw [workOf_setWorker, if_neg hsb]
      simp only [workOf, Function.update_of_ne hsb]
  · rename_i ssId hpc
    cases hs
    refine ⟨?_, fun sb hsb => by rw [workOf_setWorker, if_neg hsb], rfl, rfl⟩
    rw [workOf_setWorker, if_pos rfl, workOf, hpc]
    simp [workerLeft]
  · rename_i p frameMap hpc
    cases hs
    have hreq : (s.processReq cfg sbId p frameMap objs).workOf = s.workOf ∧
        (s.processReq cfg sbId p frameMap objs).reqQueue = s.reqQueue ∧
          (s.processReq cfg sbId p frameMap objs).batch = s.batch ∧
            (s.processReq cfg sbId p frameMap objs).procQueue = s.procQueue := by
      unfold processReq
      split <;> exact ⟨rfl, rfl, rfl, rfl⟩
    refine ⟨?_, fun sb hsb => by rw [workOf_setWorker, if_neg hsb, hreq.1], hreq.2.2.1, hreq.2.2.2⟩
    rw [workOf_setWorker, if_pos rfl, workOf, hpc, hreq.2.1]
    simp [workerLeft]
  · rename_i p hpc
    obtain ⟨t, ht, rfl⟩ := Option.map_eq_some_iff.mp hs
    obtain ⟨_, _, _, _, _, _, rfl⟩ := completeReq_eq ht
    refine ⟨?_, fun sb hsb => by rw [workOf_setWorker, if_neg hsb]; rfl, rfl, rfl⟩
    rw [workOf_setWorker, if_pos rfl, workOf, hpc]
    simp [workerLeft]

/-- Each section of a processing thread leaves less. -/
theorem work_lt (ha : Processing a) (hs : s.step cfg a = some s') : s'.work cfg < s.work cfg := by
  cases a with
  | processBatch objs =>
    simp only [step] at hs
    split at hs
    · obtain ⟨hlt, heq⟩ := processBatch_left hs
      rw [work, work, heq]
      exact Nat.add_lt_add_right hlt _
    · cases hs
  | processSubBatch sbId objs =>
    simp only [step] at hs
    split at hs
    · rename_i hsb
      obtain ⟨hlt, hother, hbatch, hqueue⟩ := processSubBatch_left hs
      rw [work, work, hbatch, hqueue]
      refine Nat.add_lt_add_left (Finset.sum_lt_sum (fun sb _ => ?_) ⟨sbId, Finset.mem_range.mpr hsb, hlt⟩) _
      by_cases he : sb = sbId
      · exact he ▸ hlt.le
      · exact (hother sb he).le
    · cases hs
  | _ => exact absurd ha id

theorem idle_of_work (h : s.work cfg = 0) : Idle cfg s := by
  intro a s' ha hs
  have := work_lt ha hs
  omega

/-- A thread of a sub-batch that cannot go on has nothing to do, unless it is
at the buffer that is missing. -/
theorem jobs_of_idle (hdel : ¬ DeletesNull cfg) (h : SubInv cfg s)
    (hidle : Idle cfg s) (sbId : SubBatchId) : s.jobs sbId = [] := by
  rcases Nat.lt_or_ge sbId cfg.subBatchSizes.length with hlt | hge
  swap
  · exact h.jobsLt hge
  have hnone : s.processSubBatch cfg sbId [] = none := by
    refine Option.eq_none_iff_forall_ne_some.mpr fun s' hs => ?_
    exact hidle (.processSubBatch sbId []) s' trivial (by rw [step, if_pos hlt, hs])
  unfold processSubBatch at hnone
  split at hnone
  · rename_i hpc
    split at hnone
    · rename_i hq
      rw [jobs, hpc, hq]
      rfl
    · cases hnone
  · cases hnone
  · cases hnone
  · rename_i p hpc
    have hjob : p ∈ s.jobs sbId := by simp [jobs, hpc, currentJob]
    have hbuf := (h.buf hjob).returns hdel
    rw [Option.map_eq_none_iff] at hnone
    unfold completeReq at hnone
    split at hnone
    · cases hnone
    · split at hnone
      · dsimp only at hnone
        split at hnone
        · rw [Option.map_eq_none_iff, returnBuffer, if_neg hbuf] at hnone
          cases hnone
        · cases hnone
      · cases hnone

/-- Likewise for the thread of `processBatch`. -/
theorem held_of_idle (hsub : cfg.subBatchSizes.length = 0) (hdel : ¬ DeletesNull cfg) (h : LineInv cfg s)
    (hidle : Idle cfg s) : s.held = [] ∧ s.unpushed = [] ∧ s.unreturned = [] := by
  have hnone : s.processBatch cfg [] = none := by
    refine Option.eq_none_iff_forall_ne_some.mpr fun s' hs => ?_
    exact hidle (.processBatch []) s' trivial (by rw [step, if_pos hsub, hs])
  unfold processBatch at hnone
  split at hnone
  · rename_i hpc
    split at hnone
    · rename_i hq
      simp [held, unpushed, unreturned, hpc, hq]
    · cases hnone
  · split at hnone <;> cases hnone
  · split at hnone <;> cases hnone
  · cases hnone
  · rename_i p hpc
    have hbuf : BufOk cfg p := h.buf p (by simp [unreturned, hpc])
    rw [returnBuffer, if_neg (hbuf.returns hdel)] at hnone
    cases hnone

/-! ### Completed once -/

/-- No batch is completed twice, none before its requests are done, and no
buffer is returned twice. -/
structure AtMostOnce (s : Sys) : Prop where
  completion : s.completed.Nodup
  buffer : s.returned.Nodup
  requests : ∀ sbId, ∀ p ∈ s.jobs sbId, p.call ∉ s.completed
  batch : ∀ p ∈ s.held, p.call ∉ s.completed

/-- The batch has one entry on the queue, its buffer was returned once, and
nothing of it is left. -/
structure CompletedOnce (s : Sys) (x : InputParams) : Prop where
  completion : s.completed.count x.pPreservedData = 1
  buffer : s.returned.count x.pPreservedData = 1
  requests : ∀ sbId, ∀ p ∈ s.jobs sbId, p.call ≠ x.pPreservedData
  batch : ∀ p ∈ s.held, p.call ≠ x.pPreservedData
  pending : ∀ (b : BatchId) (pb : PendingBatch), s.pendingBatch[b]? = some pb → pb.owner ≠ x.pPreservedData

/-- There is a buffer to delete, if it is to be deleted; and with sub-batches a
frame of the batch passes the filter. -/
def Completes (cfg : TrackerConfig) (x : InputParams) : Prop :=
  ¬ DeletesNull cfg ∧ (cfg.subBatchSizes.length = 0 ∨ Selected cfg x)

theorem SubInv.atMostOnce (h : SubInv cfg s) : AtMostOnce s where
  completion := h.nodup
  buffer := h.returned ▸ h.nodup
  requests := by
    intro sb p hp
    obtain ⟨pb, hpb, ho⟩ := h.owner hp
    exact ho ▸ h.notDone hpb
  batch := by
    rw [h.held]
    nofun

/-- With sub-batches and no request left. -/
theorem SubInv.completedOnce_iff (h : SubInv cfg s) (hjobs : ∀ sb, s.jobs sb = []) {x : InputParams}
    (hx : x ∈ s.accepted) : CompletedOnce s x ↔ Selected cfg x := by
  rcases h.accepted x hx with ⟨hdone, hsel⟩ | ⟨b, pb, hpb, ho, hw⟩
  · have hcount := List.count_eq_one_of_mem h.nodup hdone
    refine iff_of_true ⟨hcount, h.returned ▸ hcount, fun sb => ?_, ?_, fun b pb hpb he => ?_⟩ hsel
    · rw [hjobs]
      nofun
    · rw [h.held]
      nofun
    · exact h.notDone hpb (he ▸ hdone)
  · -- nobody has a request of the batch, so it is pending for nobody
    refine iff_of_false (fun hc => hc.pending b pb hpb ho) fun hsel => ?_
    obtain ⟨sb, hsb⟩ := List.exists_mem_of_ne_nil _ (hw.mpr hsel)
    have hcount := h.count b sb
    rw [waits, hpb, hjobs, List.countP_nil] at hcount
    exact List.count_eq_zero.mp hcount hsb

theorem LineInv.nodup (h : LineInv cfg s) :
    (s.completed ++ (s.unpushed ++ s.held).map ProcParams.call).Nodup := by
  rw [← h.accepted]
  exact (List.pairwise_append.mp h.sorted).1.imp Nat.ne_of_lt

theorem LineInv.atMostOnce (h : LineInv cfg s) : AtMostOnce s := by
  obtain ⟨hcompleted, -, hdisjoint⟩ := List.nodup_append.mp h.nodup
  refine ⟨hcompleted, ?_, fun sb => ?_, fun p hp hc => ?_⟩
  · exact (List.nodup_append.mp (h.returned ▸ hcompleted)).1
  · rw [h.jobs]
    nofun
  · exact hdisjoint _ hc _ (List.mem_map.mpr ⟨p, List.mem_append_right _ hp, rfl⟩) rfl

/-- Without sub-batches and at rest: everything accepted was completed. -/
theorem LineInv.completedOnce (h : LineInv cfg s)
    (hrest : s.held = [] ∧ s.unpushed = [] ∧ s.unreturned = []) {x : InputParams} (hx : x ∈ s.accepted) :
    CompletedOnce s x := by
  obtain ⟨hheld, hunpushed, hunreturned⟩ := hrest
  have haccepted := h.accepted
  have hreturned := h.returned
  rw [hheld, hunpushed, List.append_nil, List.map_nil, List.append_nil] at haccepted
  rw [hunreturned, List.map_nil, List.append_nil] at hreturned
  have hdone : x.pPreservedData ∈ s.completed := haccepted ▸ List.mem_map_of_mem hx
  have hcount := List.count_eq_one_of_mem h.atMostOnce.completion hdone
  refine ⟨hcount, hreturned ▸ hcount, fun sb => ?_, ?_, fun b pb hpb he => ?_⟩
  · rw [h.jobs]
    nofun
  · rw [hheld]
    nofun
  · -- what is pending is still being submitted, after everything accepted
    obtain ⟨p, hp, -, rfl⟩ := (h.pending b pb).mp hpb
    rw [hheld, List.nil_append] at hp
    have hlt := (List.pairwise_append.mp h.sorted).2.2 _ (List.mem_map_of_mem hx) _ (List.mem_map_of_mem hp)
    exact hlt.ne' he

/-- **Which batches are completed.** In every reachable state no batch is
completed twice or too early, each section of a processing thread leaves less
work, and when the threads are at rest a batch that was accepted is completed
exactly when it has a frame to track (with sub-batches) and a buffer to delete
(if that is to be done). -/
theorem completes_iff (h : Reach (step cfg) anyStep (Started cfg) s) :
    AtMostOnce s ∧ (∀ a s', Processing a → s.step cfg a = some s' → s'.work cfg < s.work cfg) ∧
      (Idle cfg s → ∀ x ∈ s.accepted, CompletedOnce s x ↔ Completes cfg x) := by
  refine ⟨?_, fun a s' => work_lt, fun hidle x hx => ?_⟩
  · by_cases hsub : cfg.subBatchSizes.length = 0
    · exact (LineInv.of_reach hsub h).atMostOnce
    · exact (SubInv.of_reach hsub h).atMostOnce
  by_cases hdel : DeletesNull cfg
  · -- no buffer is ever returned
    have hnone : s.returned = [] := by
      by_cases hsub : cfg.subBatchSizes.length = 0
      · exact (LineInv.of_reach hsub h).crash hdel
      · exact (SubInv.of_reach hsub h).crash hdel
    refine iff_of_false (fun hc => ?_) fun hc => hc.1 hdel
    have := hc.buffer
    rw [hnone, List.count_nil] at this
    cases this
  rw [Completes, and_iff_right hdel]
  by_cases hsub : cfg.subBatchSizes.length = 0
  · have hline := LineInv.of_reach hsub h
    exact iff_of_true (hline.completedOnce (held_of_idle hsub hdel hline hidle) hx) (.inl hsub)
  · have hinv := SubInv.of_reach hsub h
    rw [or_iff_right hsub]
    exact hinv.completedOnce_iff (jobs_of_idle hdel hinv hidle) hx

/-! ### A run that completes a batch and one that does not -/

/-- The tracker as `init` leaves it. -/
def start (cfg : TrackerConfig) (h : (init cfg).isSome) : Sys := (init cfg).get h

theorem started_start (cfg : TrackerConfig) (h : (init cfg).isSome) : Started cfg (start cfg h) :=
  (Option.some_get h).symm

/-- A batch with one frame is submitted. -/
def submitFrame (frame : NvDsFrameMeta) : List Action := [.submitInput [some frame] .ok, .submitNext]

/-- The thread of the sub-batch does its three sections. -/
theorem completes_iff_oneFrame :
    let cfg := dynamicConfig [1]
    let s := (exec (step cfg) anyStep (start cfg (by decide)) (submitFrame (.of 0 0 0) ++
      [.processSubBatch 0 [], .processSubBatch 0 [], .processSubBatch 0 []])).get (by decide +kernel)
    AtMostOnce s ∧ (∀ a s', Processing a → s.step cfg a = some s' → s'.work cfg < s.work cfg) ∧
      (Idle cfg s → ∀ x ∈ s.accepted, CompletedOnce s x ↔ Completes cfg x) :=
  completes_iff (Reach.get_exec (started_start _ _) _)

/-- Only surfaces of type 2 are tracked. -/
def filterConfig (sizes : List ℕ) : TrackerConfig :=
  { dynamicConfig sizes with trackingSurfType := 2, trackingSurfTypeFromConfig := true }

/-- A batch with one frame, of another type: it is accepted, nobody has anything
to do, and it stays pending. -/
theorem completes_fails : ∃ s, Reach (step (filterConfig [1])) anyStep (Started (filterConfig [1])) s ∧
    Idle (filterConfig [1]) s ∧ ∃ x ∈ s.accepted, ¬ CompletedOnce s x := by
  refine ⟨_, Reach.get_exec (started_start _ (by decide))
    (show (exec (step (filterConfig [1])) anyStep _ (submitFrame (.of 0 0 1))).isSome by decide +kernel),
    idle_of_work (by decide +kernel), ⟨0, [some (.of 0 0 1)]⟩, by decide +kernel, fun h => ?_⟩
  exact absurd h.completion (by decide +kernel)

end Sys
end Tracker
end DeepStream
